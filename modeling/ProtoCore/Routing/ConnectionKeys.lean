import ProtoCore.Routing.ConnectionRequests
import ProtoCore.Topic.ClientSockets
import ProtoCore.Topic.ConnectionIsolation

/-!
# The key of a connection

The publisher reads the address of its socket and sends it in the reply of the handshake. The
subscriber reads it when it accepts the connection. Both write it into 15 characters, which
the longest addresses do not leave room for.
-/

set_option autoImplicit false

namespace ProtoCore

open Library Topic

namespace Topic

/-- Some number of the address is written with fewer than three digits. -/
def InAddr.Short (addr : InAddr) : Prop :=
  addr.first < 100 ∨ addr.second < 100 ∨ addr.third < 100 ∨ addr.fourth < 100

instance (addr : InAddr) : Decidable addr.Short := inferInstanceAs (Decidable (_ ∨ _ ∨ _ ∨ _))

theorem length_repr_byte (byte : UInt8) : byte.toNat.repr.length ≤ 3 :=
  (Nat.length_repr_le_iff (by decide)).mpr (by have := byte.toNat_lt; omega)

theorem length_repr_byte_le_two (byte : UInt8) : byte.toNat.repr.length ≤ 2 ↔ byte < 100 := by
  rw [Nat.length_repr_le_iff (by decide), UInt8.lt_iff_toNat_lt]
  rfl

theorem InAddr.length_dotted (addr : InAddr) : addr.dotted.length =
    addr.first.toNat.repr.length + addr.second.toNat.repr.length + addr.third.toNat.repr.length +
      addr.fourth.toNat.repr.length + 3 := by
  have dot : ".".length = 1 := rfl
  simp only [InAddr.dotted, String.length_append, dot]
  omega

theorem InAddr.length_dotted_lt_iff (addr : InAddr) : addr.dotted.length < 15 ↔ addr.Short := by
  rw [InAddr.length_dotted, InAddr.Short]
  simp only [← length_repr_byte_le_two]
  have first := length_repr_byte addr.first
  have second := length_repr_byte addr.second
  have third := length_repr_byte addr.third
  have fourth := length_repr_byte addr.fourth
  omega

theorem inetNtop_of_short {addr : InAddr} (short : addr.Short) :
    inetNtop addr 15 = some addr.dotted :=
  if_pos (addr.length_dotted_lt_iff.mpr short)

theorem inetNtop_of_not_short {addr : InAddr} (long : ¬ addr.Short) : inetNtop addr 15 = none :=
  if_neg (mt addr.length_dotted_lt_iff.mp long)

theorem getSocketInfo_of_short {addr : SockaddrIn} (short : addr.sinAddr.Short) :
    getSocketInfo (some addr) = .info addr.sinAddr.dotted addr.sinPort.toNat := by
  simp only [getSocketInfo, inetNtop_of_short short]

theorem getSocketInfo_eq_info {addr : SockaddrIn} {srcIp : String} {srcPort : Int}
    (read : getSocketInfo (some addr) = .info srcIp srcPort) :
    srcIp = addr.sinAddr.dotted ∧ srcPort = addr.sinPort.toNat := by
  simp only [getSocketInfo] at read
  cases written : inetNtop addr.sinAddr 15 with
  | none =>
      rw [written] at read
      cases read
  | some text =>
      rw [written] at read
      cases read
      exact ⟨TCPServer.inetNtop_eq_some written, rfl⟩

end Topic

namespace Routing

/-- The reply of a handshake whose connection has been made. -/
def connectedReply (request : ConnectionRequest) (ip : String) (port : Int) : ConnectionReply where
  object := request.object
  url := request.url
  ip := ip
  port := int32 port

/-- The reply on the address of the publisher's socket. -/
def replyOn (request : ConnectionRequest) (addr : SockaddrIn) : Option ConnectionReply :=
  match getSocketInfo (some addr) with
  | .info ip port => some (connectedReply request ip port)
  | _ => none

/-- The two ends have one key for a connection from this address, and no other address has it. -/
structure KeyAgreed (addr : SockaddrIn) : Prop where
  published : getSocketInfo (some addr) = .info addr.sinAddr.dotted addr.sinPort.toNat
  accepted : ∀ (server : TCPServer) (fd : Nat), (server.storeClient fd addr).isSome
  stored : ∀ (request : ConnectionRequest) (reply : ConnectionReply) (server next : TCPServer)
    (fd : Nat), replyOn request addr = some reply → server.storeClient fd addr = some next →
    fd < next.fdToAddr.length → ∃ key, next.fdToAddr[fd]? = some key ∧
      next.unmappedAddrToFd key = some fd ∧
        (next.acceptClient reply.object reply.ip reply.port).accepting =
          next.accepting ++ [⟨reply.object, key⟩]
  apart : ∀ (other : SockaddrIn) (request : ConnectionRequest) (reply otherReply : ConnectionReply),
    other ≠ addr → replyOn request addr = some reply → replyOn request other = some otherReply →
      token reply.ip reply.port ≠ token otherReply.ip otherReply.port

theorem int32_port (port : UInt16) : int32 port.toNat = port.toNat := by
  have bound := port.toNat_lt
  exact int32_of_range (by omega) (by omega)

/-- A reply on an address has the key of that address. -/
theorem replyOn_token {request : ConnectionRequest} {addr : SockaddrIn} {reply : ConnectionReply}
    (replied : replyOn request addr = some reply) : token reply.ip reply.port = addr.token := by
  unfold replyOn at replied
  cases read : getSocketInfo (some addr) with
  | failed =>
      rw [read] at replied
      cases replied
  | null =>
      rw [read] at replied
      cases replied
  | info ip port =>
      rw [read] at replied
      cases replied
      obtain ⟨rfl, rfl⟩ := getSocketInfo_eq_info read
      rw [connectedReply, int32_port]
      rfl

/-- An index that is there after the store was in reach before it. -/
theorem storeClient_near {server next : TCPServer} {fd : Nat} {addr : SockaddrIn}
    (stored : server.storeClient fd addr = some next) (inside : fd < next.fdToAddr.length) :
    Reaches server.fdToAddr fd := by
  by_contra far
  unfold TCPServer.storeClient at stored
  obtain ⟨srcIp, _, rfl⟩ := Option.map_eq_some_iff.mp stored
  rw [if_neg (mt (lt_length_grow_iff "").mp far)] at inside
  exact far (Nat.lt_of_lt_of_le inside (Nat.le_add_right _ _))

theorem acceptClient_of_unmapped {server : TCPServer} {ip : String} {port : Int}
    (found : (server.unmappedAddrToFd (token ip port)).isSome = true) (topic : String) :
    (server.acceptClient topic ip port).accepting =
      server.accepting ++ [⟨topic, token ip port⟩] := by
  rw [TCPServer.acceptClient, if_pos found]

theorem keyAgreed_of_short {addr : SockaddrIn} (short : addr.sinAddr.Short) : KeyAgreed addr where
  published := getSocketInfo_of_short short
  accepted server fd := by
    rw [TCPServer.storeClient, inetNtop_of_short short]
    rfl
  stored request reply server next fd replied stored inside := by
    have near := storeClient_near stored inside
    have key := replyOn_token replied
    cases TCPServer.storeClient_eq_some near stored
    refine ⟨addr.token, ?_, ?_, ?_⟩
    · exact List.getElem?_set_self (lt_length_grow "" near)
    · simp only [Function.update_self]
    · rw [← key]
      refine acceptClient_of_unmapped ?_ reply.object
      rw [key]
      simp only [Function.update_self, Option.isSome_some]
  apart other request reply otherReply different replied otherReplied same := by
    rw [replyOn_token replied, replyOn_token otherReplied] at same
    exact different (SockaddrIn.token_inj same).symm

/-- The two ends agree on an address exactly if its text leaves room for the NUL. -/
theorem keyAgreed_iff_short (addr : SockaddrIn) : KeyAgreed addr ↔ addr.sinAddr.Short := by
  constructor
  · intro agreed
    by_contra long
    have published := agreed.published
    simp only [getSocketInfo, inetNtop_of_not_short long] at published
    cases published
  · exact keyAgreed_of_short

/-- 192.168.100.100 has 15 characters. -/
theorem fullAddress_not_agreed : ¬ KeyAgreed ⟨⟨192, 168, 100, 100⟩, 40000⟩ := by
  intro agreed
  cases (rfl : getSocketInfo (some ⟨⟨192, 168, 100, 100⟩, 40000⟩) = .null).symm.trans
    agreed.published

end Routing

end ProtoCore
