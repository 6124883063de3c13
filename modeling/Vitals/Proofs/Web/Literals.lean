import Vitals.Proofs.Text.Digits
import Vitals.Proofs.Text.Parts
import Vitals.Web.Address

/-!
# Hosts as they are written

What a host looks like, apart from how it is read. An IPv4 address is four numbers in decimal
digits; an IPv6 address is eight groups of hexadecimal digits, of which an IPv4 address may write
the last two, and two colons may stand for one group of zero or more. An IPv6 address stands between
brackets, with a scope or without one.
-/

namespace Vitals.Web.Host

open Text Text.Reader

/-- Four numbers up to 255 in decimal digits, with points between them. -/
structure IsV4 (text : List Char) (octets : List Nat) : Prop where
  four : octets.length = 4
  small : ∀ octet ∈ octets, octet ≤ 255
  written : text = ['.'].intercalate (octets.map (Nat.toDigits 10))

/-- A number in one to four hexadecimal digits. -/
structure IsGroup (text : List Char) (number : Nat) : Prop where
  nonempty : text ≠ []
  short : text.length ≤ 4
  written : ofHexDigits? text = some number

/-- Groups with colons between them, at least one, and whether an IPv4 address writes the last
two. -/
inductive IsGroups : Bool → List Char → List Nat → Prop where
  | group {text : List Char} {number : Nat} (group : IsGroup text number) :
      IsGroups false text [number]
  | octets {text : List Char} {a b c d : Nat} (octets : IsV4 text [a, b, c, d]) :
      IsGroups true text [a * 256 + b, c * 256 + d]
  | cons {text rest : List Char} {number : Nat} {numbers : List Nat} {endsInOctets : Bool}
      (group : IsGroup text number) (groups : IsGroups endsInOctets rest numbers) :
      IsGroups endsInOctets (text ++ ':' :: rest) (number :: numbers)

/-- The groups on one side of two colons, perhaps none. -/
inductive IsSide : Bool → List Char → List Nat → Prop where
  | none : IsSide false [] []
  | some {text : List Char} {numbers : List Nat} {endsInOctets : Bool}
      (groups : IsGroups endsInOctets text numbers) : IsSide endsInOctets text numbers

/-- Eight groups, all written or those of one place left out as zero. -/
inductive IsV6 : List Char → List Nat → Prop where
  | full {text : List Char} {numbers : List Nat} {endsInOctets : Bool}
      (groups : IsGroups endsInOctets text numbers) (eight : numbers.length = 8) :
      IsV6 text numbers
  | short {left right : List Char} {front back : List Nat} {endsInOctets : Bool}
      (before : IsSide false left front) (behind : IsSide endsInOctets right back)
      (room : front.length + back.length < 8) :
      IsV6 (left ++ ':' :: ':' :: right)
        (front ++ List.replicate (8 - front.length - back.length) 0 ++ back)

/-- A number of 32 bits in decimal digits behind a percent sign; it is 0 if none is written. -/
inductive IsScope : List Char → Nat → Prop where
  | none : IsScope [] 0
  | number {digits : List Char} (nonempty : digits ≠ []) (all : ∀ c ∈ digits, isDigit c = true)
      (fits : ofDigits digits < UInt32.size) : IsScope ('%' :: digits) (ofDigits digits)

/-- The host that a text denotes. -/
inductive Denotes : List Char → Host → Prop where
  | v4 {text : List Char} {octets : List Nat} (address : IsV4 text octets) :
      Denotes text (.v4 octets)
  | v6 {text mark : List Char} {groups : List Nat} {scope : Nat} (address : IsV6 text groups)
      (marked : IsScope mark scope) : Denotes ('[' :: (text ++ mark ++ [']'])) (.v6 groups scope)

/-! ## Characters -/

def isHexDigit (c : Char) : Bool := (hexValue? c).isSome

theorem isHexDigit_of_isDigit {c : Char} (digit : isDigit c = true) : isHexDigit c = true := by
  have value : hexValue? c = some (c.toNat - '0'.toNat) := if_pos digit
  rw [isHexDigit, value]
  rfl

variable {text rest : List Char}

theorem stops_isDigit (stops : Stops isHexDigit rest) : Stops isDigit rest := by
  intro c head
  have refused := stops c head
  rw [Bool.eq_false_iff] at refused ⊢
  exact mt isHexDigit_of_isDigit refused

theorem isDigit_of_mem_toDigits {number : Nat} {c : Char} (c_mem : c ∈ Nat.toDigits 10 number) :
    isDigit c = true :=
  Nat.isDigit_of_mem_toDigits (by decide) (by decide) c_mem

/-- Digits write a number exactly if all of them are hexadecimal digits. -/
theorem isSome_ofHexDigits? :
    (ofHexDigits? text).isSome = true ↔ ∀ c ∈ text, isHexDigit c = true := by
  have from? (start : Nat) :
      (text.foldlM (fun value c => (hexValue? c).map (value * 16 + ·)) start).isSome = true ↔
        ∀ c ∈ text, isHexDigit c = true := by
    induction text generalizing start with
    | nil => simp
    | cons c rest ih =>
        rw [List.foldlM_cons, List.forall_mem_cons, isHexDigit]
        cases hexValue? c with
        | none => simp
        | some value => simpa using ih (start * 16 + value)
  exact from? 0

theorem IsGroup.isHexDigit {number : Nat} (group : IsGroup text number) :
    ∀ c ∈ text, Host.isHexDigit c = true :=
  isSome_ofHexDigits?.mp (Option.isSome_of_eq_some group.written)

theorem isV4_iff {first : Nat} {others : List Nat} :
    IsV4 text (first :: others) ↔
      others.length = 3 ∧ (∀ octet ∈ first :: others, octet ≤ 255) ∧
        text = Nat.toDigits 10 first ++
          others.flatMap fun octet => '.' :: Nat.toDigits 10 octet := by
  constructor
  · rintro ⟨four, small, written⟩
    refine ⟨Nat.succ.inj four, small, ?_⟩
    rw [written, List.map_cons, intercalate_cons, List.flatMap_map]
    rfl
  · rintro ⟨three, small, written⟩
    refine ⟨congrArg Nat.succ three, small, ?_⟩
    rw [written, List.map_cons, intercalate_cons, List.flatMap_map]
    rfl

end Vitals.Web.Host
