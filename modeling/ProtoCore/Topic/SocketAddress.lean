import Mathlib.Data.List.Basic

/-!
# Addresses of sockets

A connection is known by the text of its peer's address: a dotted decimal, a colon and a
port.
-/

set_option autoImplicit false

namespace ProtoCore.Topic

/-- The bytes of an IPv4 address. -/
structure InAddr where
  first : UInt8
  second : UInt8
  third : UInt8
  fourth : UInt8
  deriving DecidableEq, Repr

/-- The address of a peer. Its port is in the order of the host. -/
structure SockaddrIn where
  sinAddr : InAddr
  sinPort : UInt16
  deriving DecidableEq, Repr

def InAddr.dotted (addr : InAddr) : String :=
  addr.first.toNat.repr ++ "." ++ addr.second.toNat.repr ++ "." ++ addr.third.toNat.repr ++ "." ++
    addr.fourth.toNat.repr

/-- The text and its NUL have to fit. -/
def inetNtop (addr : InAddr) (size : Nat) : Option String :=
  if addr.dotted.length < size then some addr.dotted else none

/-- `ip + ":" + to_string(port)` -/
def token (ip : String) (port : Int) : String := ip ++ ":" ++ toString port

namespace SockaddrIn

def token (addr : SockaddrIn) : String := Topic.token addr.sinAddr.dotted addr.sinPort.toNat

end SockaddrIn

/-! ## Different peers have different texts -/

theorem append_separator_inj {Symbol : Type} {separator : Symbol}
    {left right rest tail : List Symbol} (clean : separator ∉ left) (other : separator ∉ right)
    (same : left ++ separator :: rest = right ++ separator :: tail) :
    left = right ∧ rest = tail := by
  induction left generalizing right with
  | nil =>
      cases right with
      | nil => exact ⟨rfl, (List.cons.inj same).2⟩
      | cons symbol right =>
          obtain ⟨rfl, _⟩ := List.cons.inj same
          exact absurd List.mem_cons_self other
  | cons symbol left ih =>
      cases right with
      | nil =>
          obtain ⟨rfl, _⟩ := List.cons.inj same
          exact absurd List.mem_cons_self clean
      | cons head right =>
          obtain ⟨rfl, rests⟩ := List.cons.inj same
          have found := ih (fun member => clean (List.mem_cons_of_mem _ member))
            (fun member => other (List.mem_cons_of_mem _ member)) rests
          exact ⟨by rw [found.1], found.2⟩

theorem separator_notMem_digits {number : Nat} {separator : Char}
    (apart : separator.isDigit = false) : separator ∉ Nat.toDigits 10 number := by
  intro member
  have digit := Nat.isDigit_of_mem_toDigits (by decide) (by decide) member
  cases apart.symm.trans digit

theorem toDigits_inj {left right : Nat} (same : Nat.toDigits 10 left = Nat.toDigits 10 right) :
    left = right := by
  have read := congrArg (fun digits => Nat.ofDigitChars 10 digits 0) same
  simpa using read

theorem InAddr.dotted_toList (addr : InAddr) : addr.dotted.toList =
    Nat.toDigits 10 addr.first.toNat ++ '.' :: (Nat.toDigits 10 addr.second.toNat ++ '.' ::
      (Nat.toDigits 10 addr.third.toNat ++ '.' :: Nat.toDigits 10 addr.fourth.toNat)) := by
  simp [InAddr.dotted]

theorem InAddr.dotted_inj {left right : InAddr} {rest tail : List Char}
    (same : left.dotted.toList ++ ':' :: rest = right.dotted.toList ++ ':' :: tail) :
    left = right ∧ rest = tail := by
  simp only [InAddr.dotted_toList, List.append_assoc, List.cons_append] at same
  have dot (number : Nat) : '.' ∉ Nat.toDigits 10 number := separator_notMem_digits (by decide)
  have colon (number : Nat) : ':' ∉ Nat.toDigits 10 number := separator_notMem_digits (by decide)
  obtain ⟨first, same⟩ := append_separator_inj (dot _) (dot _) same
  obtain ⟨second, same⟩ := append_separator_inj (dot _) (dot _) same
  obtain ⟨third, same⟩ := append_separator_inj (dot _) (dot _) same
  obtain ⟨fourth, same⟩ := append_separator_inj (colon _) (colon _) same
  refine ⟨?_, same⟩
  cases left
  cases right
  rw [InAddr.mk.injEq]
  exact ⟨UInt8.toNat_inj.mp (toDigits_inj first), UInt8.toNat_inj.mp (toDigits_inj second),
    UInt8.toNat_inj.mp (toDigits_inj third), UInt8.toNat_inj.mp (toDigits_inj fourth)⟩

theorem SockaddrIn.token_toList (addr : SockaddrIn) : addr.token.toList =
    addr.sinAddr.dotted.toList ++ ':' :: Nat.toDigits 10 addr.sinPort.toNat := by
  have port : toString (addr.sinPort.toNat : Int) = addr.sinPort.toNat.repr := rfl
  simp [SockaddrIn.token, Topic.token, port]

theorem SockaddrIn.token_inj {left right : SockaddrIn} (same : left.token = right.token) :
    left = right := by
  have texts := congrArg String.toList same
  rw [SockaddrIn.token_toList, SockaddrIn.token_toList] at texts
  obtain ⟨address, port⟩ := InAddr.dotted_inj texts
  cases left
  cases right
  rw [SockaddrIn.mk.injEq]
  exact ⟨address, UInt16.toNat_inj.mp (toDigits_inj port)⟩

end ProtoCore.Topic
