import Vitals.Proofs.Web.Literals

/-!
# Addresses through their texts

The readers of hosts take exactly the texts that denote one. They take as much as they can: an IPv4
address before a group, and groups before two colons. That loses nothing, because what follows a
part in a host can never be read as more of it.

So an address is a host, a colon and a port, and since a port is digits only, the colon is the last
one of the text. What is put in front of a colon and a port is therefore the whole host, or there is
no address.
-/

namespace Vitals.Web

open Text Text.Reader

namespace Host

variable {chars text rest : List Char}

/-! ## IPv4 addresses -/

theorem octet_eq_some {number : Nat} (read : octet chars = some (number, rest)) :
    number ≤ 255 ∧ chars = Nat.toDigits 10 number ++ rest := by
  rw [octet] at read
  rcases bind_eq_some_iff.mp read with ⟨digits, after, taken, checked⟩
  rcases takeWhile1_eq_some_iff.mp taken with ⟨nonempty, all, -, rfl⟩
  split at checked
  · cases checked
  · next plain =>
      split at checked
      · cases checked
      · next small =>
          obtain ⟨rfl, rfl⟩ := Prod.mk.inj (Option.some.inj checked)
          refine ⟨Nat.le_of_not_lt small, ?_⟩
          rw [toDigits_ofDigits nonempty all]
          intro zero
          have positive := List.length_pos_of_ne_nil nonempty
          have single : ¬1 < digits.length := fun long => plain (Or.inr ⟨zero, long⟩)
          omega

theorem octet_append {number : Nat} (small : number ≤ 255) (stops : Stops isDigit rest) :
    octet (Nat.toDigits 10 number ++ rest) = some (number, rest) := by
  have taken : takeWhile1 isDigit (Nat.toDigits 10 number ++ rest) =
      some (Nat.toDigits 10 number, rest) :=
    takeWhile1_append (fun _ => isDigit_of_mem_toDigits) Nat.toDigits_ne_nil stops
  have length : (Nat.toDigits 10 number).length ≤ 3 :=
    (Nat.length_toDigits_le_iff (by decide) (by decide)).mpr (by omega)
  have plain : ∀ value < 256, (Nat.toDigits 10 value).head? = some '0' →
      ¬1 < (Nat.toDigits 10 value).length := by decide +kernel
  have value : ofDigits (Nat.toDigits 10 number) = number := by
    rw [ofDigits_eq, Nat.ofDigitChars_ten_toDigits]
  rw [octet]
  refine bind_eq taken ?_
  rw [value, if_neg, if_neg (Nat.not_lt.mpr small)]
  · rfl
  · rintro (long | ⟨zero, long⟩)
    · omega
    · exact plain number (by omega) zero long

/-- Octets, each behind a point. -/
def behindPoints (octets : List Nat) : List Char :=
  octets.flatMap fun octet => '.' :: Nat.toDigits 10 octet

theorem stops_behindPoints (octets : List Nat) (stops : Stops isDigit rest) :
    Stops isDigit (behindPoints octets ++ rest) := by
  cases octets with
  | nil => exact stops
  | cons first others => exact stops_cons (by decide) _

/-- The reader of some octets, each behind a point. -/
def octetsBehind (count : Nat) : Reader (List Nat) :=
  (List.replicate count ()).mapM fun _ => do
    Reader.char '.'
    octet

theorem octetsBehind_eq_some {count : Nat} {octets : List Nat}
    (read : octetsBehind count chars = some (octets, rest)) :
    octets.length = count ∧ (∀ octet ∈ octets, octet ≤ 255) ∧
      chars = behindPoints octets ++ rest := by
  induction count generalizing chars octets with
  | zero =>
      obtain ⟨rfl, rfl⟩ := Prod.mk.inj (Option.some.inj read)
      exact ⟨rfl, by simp, rfl⟩
  | succ count ih =>
      rw [octetsBehind, List.replicate_succ, List.mapM_cons] at read
      rcases bind_eq_some_iff.mp read with ⟨first, afterFirst, readFirst, readOthers⟩
      rcases bind_eq_some_iff.mp readFirst with ⟨_, afterPoint, point, readOctet⟩
      rcases bind_eq_some_iff.mp readOthers with ⟨others, afterOthers, readMore, finished⟩
      obtain ⟨rfl, rfl⟩ := Prod.mk.inj (Option.some.inj finished)
      rcases octet_eq_some readOctet with ⟨small, rfl⟩
      rcases ih readMore with ⟨length, allSmall, rfl⟩
      obtain rfl := char_eq_some_iff.mp point
      refine ⟨congrArg Nat.succ length, List.forall_mem_cons.mpr ⟨small, allSmall⟩, ?_⟩
      simp [behindPoints]

theorem octetsBehind_append {octets : List Nat} (small : ∀ octet ∈ octets, octet ≤ 255)
    (stops : Stops isDigit rest) :
    octetsBehind octets.length (behindPoints octets ++ rest) = some (octets, rest) := by
  induction octets with
  | nil => rfl
  | cons first others ih =>
      have later := stops_behindPoints others stops
      have one : (do Reader.char '.'; octet : Reader Nat)
          ('.' :: (Nat.toDigits 10 first ++ (behindPoints others ++ rest))) =
          some (first, behindPoints others ++ rest) :=
        bind_eq char_cons (octet_append (small first List.mem_cons_self) later)
      have more := ih fun octet octet_mem => small octet (List.mem_cons_of_mem first octet_mem)
      have start : behindPoints (first :: others) ++ rest =
          '.' :: (Nat.toDigits 10 first ++ (behindPoints others ++ rest)) := by
        simp [behindPoints]
      rw [octetsBehind, List.length_cons, List.replicate_succ, List.mapM_cons, start]
      exact bind_eq one (bind_eq more rfl)

theorem octets_eq_some {numbers : List Nat} (read : octets chars = some (numbers, rest)) :
    ∃ text, chars = text ++ rest ∧ IsV4 text numbers := by
  rw [octets] at read
  rcases bind_eq_some_iff.mp read with ⟨first, afterFirst, readFirst, readOthers⟩
  rcases bind_eq_some_iff.mp readOthers with ⟨others, afterOthers, readMore, finished⟩
  obtain ⟨rfl, rfl⟩ := Prod.mk.inj (Option.some.inj finished)
  rcases octet_eq_some readFirst with ⟨small, rfl⟩
  rcases octetsBehind_eq_some readMore with ⟨three, allSmall, rfl⟩
  refine ⟨Nat.toDigits 10 first ++ behindPoints others, by rw [List.append_assoc], ?_⟩
  exact isV4_iff.mpr ⟨three, List.forall_mem_cons.mpr ⟨small, allSmall⟩, rfl⟩

theorem head?_ne_of_isV4 {numbers : List Nat} (address : IsV4 text numbers) (rest : List Char)
    {c : Char} (other : isDigit c = false) : (text ++ rest).head? ≠ some c := by
  obtain ⟨first, others, rfl⟩ := List.exists_cons_of_length_eq_add_one address.four
  rcases isV4_iff.mp address with ⟨-, -, rfl⟩
  obtain ⟨digit, more, digits⟩ := List.exists_cons_of_ne_nil (@Nat.toDigits_ne_nil first 10)
  have isDigit : isDigit digit = true :=
    isDigit_of_mem_toDigits (digits ▸ List.mem_cons_self : digit ∈ Nat.toDigits 10 first)
  rw [digits]
  intro head
  rw [Option.some.inj head, other] at isDigit
  cases isDigit

theorem octets_append {numbers : List Nat} (address : IsV4 text numbers)
    (stops : Stops isDigit rest) : octets (text ++ rest) = some (numbers, rest) := by
  obtain ⟨first, others, rfl⟩ := List.exists_cons_of_length_eq_add_one address.four
  rcases isV4_iff.mp address with ⟨three, small, rfl⟩
  rw [List.forall_mem_cons] at small
  have later := stops_behindPoints others stops
  have more := octetsBehind_append small.2 stops
  rw [three] at more
  rw [List.append_assoc, octets]
  exact bind_eq (octet_append small.1 later) (bind_eq more rfl)

/-! ## Groups -/

theorem group_eq_some {number : Nat} (read : group chars = some (number, rest)) :
    ∃ text, chars = text ++ rest ∧ IsGroup text number := by
  rw [group] at read
  rcases bind_eq_some_iff.mp read with ⟨digits, after, taken, checked⟩
  rcases takeWhile1_eq_some_iff.mp taken with ⟨nonempty, -, -, rfl⟩
  cases written : ofHexDigits? digits with
  | none =>
      rw [written] at checked
      cases checked
  | some value =>
      simp only [written] at checked
      split at checked
      · cases checked
      · next short =>
          obtain ⟨rfl, rfl⟩ := Prod.mk.inj (Option.some.inj checked)
          exact ⟨digits, rfl, nonempty, Nat.le_of_not_lt short, written⟩

theorem group_append {number : Nat} (isGroup : IsGroup text number)
    (stops : Stops isHexDigit rest) : group (text ++ rest) = some (number, rest) := by
  have taken : takeWhile1 (fun c => (hexValue? c).isSome) (text ++ rest) = some (text, rest) :=
    takeWhile1_append isGroup.isHexDigit isGroup.nonempty stops
  rw [group]
  refine bind_eq taken ?_
  simp only [isGroup.written, if_neg (Nat.not_lt.mpr isGroup.short)]
  rfl

theorem group_eq_none (stops : Stops isHexDigit rest) : group rest = none := by
  cases read : group rest with
  | none => rfl
  | some found =>
      rcases group_eq_some read with ⟨text, rfl, isGroup⟩
      obtain ⟨c, more, rfl⟩ := List.exists_cons_of_ne_nil isGroup.nonempty
      have digit := isGroup.isHexDigit c List.mem_cons_self
      rw [stops c rfl] at digit
      cases digit

/-- No IPv4 address begins where hexadecimal digits are followed by something else than a point. -/
theorem octets_eq_none {front : List Char} (hex : ∀ c ∈ front, isHexDigit c = true)
    (stops : Stops isHexDigit rest) (unpointed : rest.head? ≠ some '.') :
    octets (front ++ rest) = none := by
  cases read : octets (front ++ rest) with
  | none => rfl
  | some found =>
      rcases octets_eq_some read with ⟨text, same, address⟩
      obtain ⟨first, others, numbers⟩ := List.exists_cons_of_length_eq_add_one address.four
      rw [numbers, isV4_iff] at address
      rcases address with ⟨three, -, written⟩
      obtain ⟨second, more, rfl⟩ := List.exists_cons_of_length_eq_add_one three
      rw [written, List.append_assoc] at same
      -- The digits in front are the same on both sides, so what follows them is a point.
      have pointed := (run_unique hex stops
        (fun _ c_mem => isHexDigit_of_isDigit (isDigit_of_mem_toDigits c_mem))
        (stops_cons (by decide) _) same).2
      rw [pointed] at unpointed
      exact absurd rfl unpointed

/-- A part where it stands first, or behind a colon. -/
def behindColon (isFirst : Bool) (text : List Char) : List Char :=
  if isFirst then text else ':' :: text

section Groups

variable {isFirst endsInOctets : Bool} {room : Nat} {numbers : List Nat}

theorem afterColon_behindColon {α : Type} (part : Reader α) (isFirst : Bool) (text : List Char) :
    afterColon isFirst part (behindColon isFirst text) = part text := by
  cases isFirst with
  | true => rfl
  | false => exact bind_eq char_cons rfl

theorem afterColon_eq_some {α : Type} {part : Reader α} {found : α × List Char}
    (read : afterColon isFirst part chars = some found) :
    ∃ text, chars = behindColon isFirst text ∧ part text = some found := by
  cases isFirst with
  | true => exact ⟨chars, rfl, read⟩
  | false =>
      rcases bind_eq_some_iff.mp read with ⟨_, text, colon, readPart⟩
      exact ⟨text, char_eq_some_iff.mp colon, readPart⟩

/-- The IPv4 address in the place of the next two groups, if two have room. -/
def embedded? (isFirst : Bool) (room : Nat) (chars : List Char) :
    Option (List Nat × List Char) :=
  if room = 0 then none else afterColon isFirst octets chars

theorem groups_succ_of_octets {a b c d : Nat}
    (read : embedded? isFirst room chars = some ([a, b, c, d], rest)) :
    groups isFirst (room + 1) chars = some (([a * 256 + b, c * 256 + d], true), rest) := by
  rw [embedded?] at read
  rw [groups, bind_apply, get_apply, Option.bind_some]
  simp only [read]
  rfl

theorem groups_succ_of_group {number : Nat} (absent : embedded? isFirst room chars = none)
    (read : afterColon isFirst group chars = some (number, rest)) :
    groups isFirst (room + 1) chars =
      (groups false room rest).map fun found => ((number :: found.1.1, found.1.2), found.2) := by
  rw [embedded?] at absent
  rw [groups, bind_apply, get_apply, Option.bind_some]
  simp only [absent, read]
  rw [bind_apply, set_apply, Option.bind_some, bind_apply]
  cases groups false room rest <;> rfl

theorem groups_succ_of_none (absent : embedded? isFirst room chars = none)
    (refused : afterColon isFirst group chars = none) :
    groups isFirst (room + 1) chars = some (([], false), chars) := by
  rw [embedded?] at absent
  rw [groups, bind_apply, get_apply, Option.bind_some]
  simp only [absent, refused]
  rfl

theorem embedded?_eq_some {found : List Nat × List Char}
    (read : embedded? isFirst room chars = some found) :
    room ≠ 0 ∧ ∃ text a b c d, found.1 = [a, b, c, d] ∧ IsV4 text [a, b, c, d] ∧
      chars = behindColon isFirst (text ++ found.2) := by
  unfold embedded? at read
  split at read
  · cases read
  · next room =>
      rcases afterColon_eq_some read with ⟨body, rfl, readOctets⟩
      rcases octets_eq_some readOctets with ⟨text, rfl, address⟩
      rcases List.length_eq_four.mp address.four with ⟨a, b, c, d, numbers⟩
      exact ⟨room, text, a, b, c, d, numbers, numbers ▸ address, rfl⟩

theorem groups_eq_some
    (read : groups isFirst room chars = some ((numbers, endsInOctets), rest)) :
    numbers.length ≤ room ∧
      ((numbers = [] ∧ endsInOctets = false ∧ rest = chars) ∨
        ∃ text, chars = behindColon isFirst (text ++ rest) ∧
          IsGroups endsInOctets text numbers) := by
  -- The reader recurses on the room for groups; behind the first group a colon is needed.
  induction room generalizing isFirst chars numbers with
  | zero =>
      obtain ⟨both, rfl⟩ := Prod.mk.inj (Option.some.inj read)
      obtain ⟨rfl, rfl⟩ := Prod.mk.inj both
      exact ⟨Nat.le_refl 0, Or.inl ⟨rfl, rfl, rfl⟩⟩
  | succ room ih =>
      cases octetsRead : embedded? isFirst room chars with
      | some found =>
          rcases found with ⟨octets, after⟩
          rcases embedded?_eq_some octetsRead with ⟨room, text, a, b, c, d, rfl, address, written⟩
          rw [groups_succ_of_octets octetsRead] at read
          obtain ⟨both, rfl⟩ := Prod.mk.inj (Option.some.inj read)
          obtain ⟨rfl, rfl⟩ := Prod.mk.inj both
          refine ⟨?_, Or.inr ⟨text, written, .octets address⟩⟩
          simp only [List.length_cons, List.length_nil]
          omega
      | none =>
          cases groupRead : afterColon isFirst group chars with
          | none =>
              rw [groups_succ_of_none octetsRead groupRead] at read
              obtain ⟨both, rfl⟩ := Prod.mk.inj (Option.some.inj read)
              obtain ⟨rfl, rfl⟩ := Prod.mk.inj both
              exact ⟨Nat.zero_le _, Or.inl ⟨rfl, rfl, rfl⟩⟩
          | some found =>
              rcases found with ⟨number, after⟩
              rcases afterColon_eq_some groupRead with ⟨body, rfl, readGroup⟩
              rcases group_eq_some readGroup with ⟨text, rfl, isGroup⟩
              rw [groups_succ_of_group octetsRead groupRead, Option.map_eq_some_iff] at read
              rcases read with ⟨⟨⟨others, ends⟩, behind⟩, readOthers, whole⟩
              obtain ⟨both, rfl⟩ := Prod.mk.inj whole
              obtain ⟨rfl, rfl⟩ := Prod.mk.inj both
              rcases ih readOthers with ⟨fits, ⟨rfl, rfl, rfl⟩ | ⟨more, rfl, isGroups⟩⟩
              · exact ⟨Nat.succ_le_succ fits, Or.inr ⟨text, rfl, .group isGroup⟩⟩
              · refine ⟨Nat.succ_le_succ fits,
                  Or.inr ⟨text ++ ':' :: more, ?_, .cons isGroup isGroups⟩⟩
                rw [List.append_assoc]
                rfl

/-- What ends groups: a scope, the closing bracket, or two colons. -/
inductive Closes : List Char → Prop where
  | percent (rest : List Char) : Closes ('%' :: rest)
  | bracket (rest : List Char) : Closes (']' :: rest)
  | colons (rest : List Char) : Closes (':' :: ':' :: rest)

namespace Closes

theorem stops (closes : Closes rest) : Stops isHexDigit rest := by
  cases closes <;> exact stops_cons (by decide) _

theorem head?_ne (closes : Closes rest) : rest.head? ≠ some '.' := by
  cases closes <;> simp

/-- Not even behind a colon does a group begin. -/
theorem refused (closes : Closes (behindColon isFirst text)) :
    Stops isHexDigit text ∧ text.head? ≠ some '.' := by
  cases isFirst with
  | true => exact ⟨Closes.stops closes, Closes.head?_ne closes⟩
  | false =>
      cases closes with
      | colons rest => exact ⟨stops_cons (by decide) rest, by simp⟩

end Closes

theorem afterColon_eq_none {α : Type} {part : Reader α}
    (refused : ∀ text, chars = behindColon isFirst text → part text = none) :
    afterColon isFirst part chars = none := by
  cases read : afterColon isFirst part chars with
  | none => rfl
  | some found =>
      rcases afterColon_eq_some read with ⟨text, written, readPart⟩
      rw [refused text written] at readPart
      cases readPart

theorem groups_of_closes (closes : Closes rest) :
    groups isFirst room rest = some (([], false), rest) := by
  cases room with
  | zero => rfl
  | succ room =>
      apply groups_succ_of_none
      · unfold embedded?
        split
        · rfl
        · apply afterColon_eq_none
          rintro text rfl
          have none : ∀ c ∈ ([] : List Char), isHexDigit c = true := by simp
          exact octets_eq_none none closes.refused.1 closes.refused.2
      · apply afterColon_eq_none
        rintro text rfl
        exact group_eq_none closes.refused.1

/-- Where a group is followed by no point, no IPv4 address begins. -/
theorem embedded?_eq_none {number : Nat} (isGroup : IsGroup text number)
    (stops : Stops isHexDigit rest) (unpointed : rest.head? ≠ some '.') :
    embedded? isFirst room (behindColon isFirst (text ++ rest)) = none := by
  unfold embedded?
  split
  · rfl
  · rw [afterColon_behindColon, octets_eq_none isGroup.isHexDigit stops unpointed]

theorem groups_append (isGroups : IsGroups endsInOctets text numbers)
    (fits : numbers.length ≤ room) (closes : Closes rest) :
    groups isFirst room (behindColon isFirst (text ++ rest)) =
      some ((numbers, endsInOctets), rest) := by
  induction isGroups generalizing isFirst room with
  | @group text number isGroup =>
      cases room with
      | zero => cases fits
      | succ room =>
          have read := group_append isGroup closes.stops
          rw [← afterColon_behindColon group isFirst] at read
          rw [groups_succ_of_group (embedded?_eq_none isGroup closes.stops closes.head?_ne) read,
            groups_of_closes closes]
          rfl
  | @octets text a b c d address =>
      cases room with
      | zero => cases fits
      | succ room =>
          have two : room ≠ 0 := Nat.ne_of_gt (Nat.le_of_succ_le_succ fits)
          apply groups_succ_of_octets
          rw [embedded?, if_neg two, afterColon_behindColon,
            octets_append address (stops_isDigit closes.stops)]
  | @cons text more number numbers endsInOctets isGroup isGroups ih =>
      cases room with
      | zero => cases fits
      | succ room =>
          have stops : Stops isHexDigit (':' :: (more ++ rest)) := stops_cons (by decide) _
          have read := group_append isGroup stops
          rw [← afterColon_behindColon group isFirst] at read
          have later := @ih false room (Nat.le_of_succ_le_succ fits)
          rw [List.append_assoc, List.cons_append,
            groups_succ_of_group (embedded?_eq_none isGroup stops (by simp)) read]
          exact congrArg (Option.map _) later

theorem groups_side (side : IsSide endsInOctets text numbers) (fits : numbers.length ≤ room)
    (closes : Closes rest) :
    groups true room (text ++ rest) = some ((numbers, endsInOctets), rest) := by
  cases side with
  | none => exact groups_of_closes closes
  | some isGroups => exact @groups_append _ _ true _ _ _ isGroups fits closes

theorem isSide_of_groups
    (read : groups true room chars = some ((numbers, endsInOctets), rest)) :
    numbers.length ≤ room ∧ ∃ text, chars = text ++ rest ∧ IsSide endsInOctets text numbers := by
  rcases groups_eq_some read with ⟨fits, ⟨rfl, rfl, rfl⟩ | ⟨text, rfl, isGroups⟩⟩
  · exact ⟨fits, [], rfl, .none⟩
  · exact ⟨fits, text, rfl, .some isGroups⟩

end Groups

/-! ## IPv6 addresses -/

theorem colons_eq_some_iff {found : Unit} :
    Reader.text "::" chars = some (found, rest) ↔ chars = ':' :: ':' :: rest := by
  change (Reader.char ':' >>= fun _ => Reader.char ':' >>= fun _ => pure ()) chars = _ ↔ _
  constructor
  · intro read
    rcases bind_eq_some_iff.mp read with ⟨_, after, first, readSecond⟩
    rcases bind_eq_some_iff.mp readSecond with ⟨_, behind, second, finished⟩
    obtain ⟨-, rfl⟩ := Prod.mk.inj (Option.some.inj finished)
    rw [char_eq_some_iff.mp first, char_eq_some_iff.mp second]
  · rintro rfl
    exact bind_eq char_cons (bind_eq char_cons rfl)

theorem allGroups_eq_some {numbers : List Nat} (read : allGroups chars = some (numbers, rest)) :
    ∃ text, chars = text ++ rest ∧ IsV6 text numbers := by
  rw [allGroups] at read
  rcases bind_eq_some_iff.mp read with ⟨⟨front, endsInOctets⟩, after, readFront, checked⟩
  rcases isSide_of_groups readFront with ⟨fits, left, rfl, before⟩
  simp only at checked
  split at checked
  · next eight =>
      obtain ⟨rfl, rfl⟩ := Prod.mk.inj (Option.some.inj checked)
      cases before with
      | none => cases eight
      | some isGroups => exact ⟨left, rfl, .full isGroups eight⟩
  · next notEight =>
      split at checked
      · cases checked
      · next notOctets =>
          rcases bind_eq_some_iff.mp checked with ⟨_, behind, colons, readBack⟩
          rcases bind_eq_some_iff.mp readBack with ⟨⟨back, ends⟩, final, readGroups, finished⟩
          obtain rfl := colons_eq_some_iff.mp colons
          rcases isSide_of_groups readGroups with ⟨backFits, right, rfl, behindColons⟩
          obtain ⟨rfl, rfl⟩ := Prod.mk.inj (Option.some.inj finished)
          rw [Bool.not_eq_true] at notOctets
          subst notOctets
          have room : front.length + back.length < 8 := by omega
          exact ⟨left ++ ':' :: ':' :: right, by simp, .short before behindColons room⟩

theorem allGroups_append {numbers : List Nat} (address : IsV6 text numbers)
    (closes : Closes rest) : allGroups (text ++ rest) = some (numbers, rest) := by
  rw [allGroups]
  cases address with
  | full isGroups eight =>
      refine bind_eq (groups_side (.some isGroups) (Nat.le_of_eq eight) closes) ?_
      simp only [eight, if_true]
      rfl
  | @short left right front back endsInOctets before behind room =>
      have readFront := @groups_side _ (':' :: ':' :: (right ++ rest)) _ 8 _ before (by omega)
        (.colons _)
      have readBack := @groups_side _ _ _ (7 - front.length) _ behind (by omega) closes
      have colons : Reader.text "::" (':' :: ':' :: (right ++ rest)) = some ((), right ++ rest) :=
        colons_eq_some_iff.mpr rfl
      have notEight : front.length ≠ 8 := by omega
      have start : left ++ ':' :: ':' :: right ++ rest = left ++ ':' :: ':' :: (right ++ rest) := by
        simp
      rw [start]
      refine bind_eq readFront ?_
      simp only [notEight, if_false, Bool.false_eq_true]
      exact bind_eq colons (bind_eq readBack rfl)

/-! ## Hosts -/

theorem scope_eq_some {number : Nat} (read : scope chars = some (number, rest)) :
    ∃ mark, chars = mark ++ rest ∧ IsScope mark number := by
  rw [scope] at read
  rcases bind_eq_some_iff.mp read with ⟨marked, after, sign, readNumber⟩
  cases marked with
  | true =>
      obtain rfl := optionalChar_eq_true sign
      rcases bind_eq_some_iff.mp readNumber with ⟨digits, behind, taken, checked⟩
      rcases takeWhile1_eq_some_iff.mp taken with ⟨nonempty, all, -, rfl⟩
      split at checked
      · next fits =>
          obtain ⟨rfl, rfl⟩ := Prod.mk.inj (Option.some.inj checked)
          exact ⟨'%' :: digits, rfl, .number nonempty all fits⟩
      · cases checked
  | false =>
      obtain rfl := optionalChar_eq_false sign
      obtain ⟨rfl, rfl⟩ := Prod.mk.inj (Option.some.inj readNumber)
      exact ⟨[], rfl, .none⟩

theorem scope_append {mark : List Char} {number : Nat} (marked : IsScope mark number)
    (rest : List Char) : scope (mark ++ ']' :: rest) = some (number, ']' :: rest) := by
  rw [scope]
  cases marked with
  | none => rfl
  | @number digits nonempty all fits =>
      have stops : Stops isDigit (']' :: rest) := stops_cons (by decide) rest
      have taken := takeWhile1_append all nonempty stops
      refine bind_eq (optionalChar_cons '%' '%' _) (bind_eq taken ?_)
      simp only [fits, if_true]
      rfl

theorem closes_of_isScope {mark : List Char} {number : Nat} (marked : IsScope mark number)
    (rest : List Char) : Closes (mark ++ ']' :: rest) := by
  cases marked with
  | none => exact .bracket rest
  | number => exact .percent _

theorem reader_eq_some {host : Host} (read : reader chars = some (host, rest)) :
    ∃ text, chars = text ++ rest ∧ Denotes text host := by
  rw [reader] at read
  rcases bind_eq_some_iff.mp read with ⟨bracketed, after, opening, readHost⟩
  cases bracketed with
  | true =>
      obtain rfl := optionalChar_eq_true opening
      rcases bind_eq_some_iff.mp readHost with ⟨groups, afterGroups, readGroups, readMark⟩
      rcases bind_eq_some_iff.mp readMark with ⟨scope, afterScope, readScope, readBracket⟩
      rcases bind_eq_some_iff.mp readBracket with ⟨_, final, bracket, finished⟩
      obtain ⟨rfl, rfl⟩ := Prod.mk.inj (Option.some.inj finished)
      rcases allGroups_eq_some readGroups with ⟨text, rfl, address⟩
      rcases scope_eq_some readScope with ⟨mark, rfl, marked⟩
      obtain rfl := char_eq_some_iff.mp bracket
      exact ⟨_, by simp, .v6 address marked⟩
  | false =>
      obtain rfl := optionalChar_eq_false opening
      rcases bind_eq_some_iff.mp readHost with ⟨numbers, afterOctets, readOctets, finished⟩
      obtain ⟨rfl, rfl⟩ := Prod.mk.inj (Option.some.inj finished)
      rcases octets_eq_some readOctets with ⟨text, rfl, address⟩
      exact ⟨text, rfl, .v4 address⟩

theorem reader_append {host : Host} (denotes : Denotes text host) (stops : Stops isDigit rest) :
    reader (text ++ rest) = some (host, rest) := by
  rw [reader]
  cases denotes with
  | @v4 text numbers address =>
      have read := octets_append address stops
      have opening :=
        optionalChar_of_head?_ne (c := '[') (head?_ne_of_isV4 address rest (by decide))
      exact bind_eq opening (bind_eq read rfl)
  | @v6 text mark groups scope address marked =>
      have readGroups := allGroups_append address (closes_of_isScope marked rest)
      have readScope := scope_append marked rest
      have start : '[' :: (text ++ mark ++ [']']) ++ rest =
          '[' :: (text ++ (mark ++ ']' :: rest)) := by simp
      rw [start]
      exact bind_eq (optionalChar_cons '[' '[' _) (bind_eq readGroups (bind_eq readScope
        (bind_eq char_cons rfl)))

/-- A text denotes at most one host. -/
theorem Denotes.unique {host other : Host} (denotes : Denotes text host)
    (too : Denotes text other) : host = other := by
  have stops : Stops isDigit [] := fun _ head => by cases head
  have read := reader_append denotes stops
  rw [reader_append too stops] at read
  exact (Prod.mk.inj (Option.some.inj read)).1.symm

end Host

namespace Address

open Vitals.Web.Host

/-- The text of an address is that of a host, a colon, and the digits of a port. -/
theorem read?_eq_some_iff {text : String} {address : Address} :
    read? text = some address ↔
      ∃ host digits, text.toList = host ++ ':' :: digits ∧ Denotes host address.host ∧
        digits ≠ [] ∧ (∀ c ∈ digits, isDigit c = true) ∧ ofDigits digits = address.port ∧
        address.port < UInt16.size := by
  rw [read?, all?_eq_some_iff, reader]
  constructor
  · intro read
    rcases bind_eq_some_iff.mp read with ⟨host, afterHost, readHost, readRest⟩
    rcases bind_eq_some_iff.mp readRest with ⟨_, afterColon, colon, readPort⟩
    rcases bind_eq_some_iff.mp readPort with ⟨digits, behind, taken, checked⟩
    rcases reader_eq_some readHost with ⟨front, written, denotes⟩
    rcases takeWhile1_eq_some_iff.mp taken with ⟨nonempty, all, -, rfl⟩
    obtain rfl := char_eq_some_iff.mp colon
    split at checked
    · next fits =>
        obtain ⟨rfl, rfl⟩ := Prod.mk.inj (Option.some.inj checked)
        rw [List.append_nil] at written
        exact ⟨front, digits, written, denotes, nonempty, all, rfl, fits⟩
    · cases checked
  · rintro ⟨front, digits, written, denotes, nonempty, all, value, fits⟩
    have readHost := reader_append denotes (stops_cons (show isDigit ':' = false by decide) digits)
    have taken : takeWhile1 isDigit (digits ++ []) = some (digits, []) :=
      takeWhile1_append all nonempty fun _ head => by cases head
    rw [List.append_nil] at taken
    rw [written]
    refine bind_eq readHost (bind_eq char_cons (bind_eq taken ?_))
    simp only [value, fits, if_true]
    rfl

/-- The host of an address is all that stands before the colon in front of the port. -/
theorem read?_append_port {host : String} {port : ℕ} (fits : port < UInt16.size)
    {address : Address} :
    read? (host ++ ":" ++ toString port) = some address ↔
      Host.Denotes host.toList address.host ∧ address.port = port := by
  have text : (host ++ ":" ++ toString port).toList =
      host.toList ++ ':' :: Nat.toDigits 10 port := by simp
  have value : ofDigits (Nat.toDigits 10 port) = port := by
    rw [ofDigits_eq, Nat.ofDigitChars_ten_toDigits]
  have digits : ∀ c ∈ Nat.toDigits 10 port, isDigit c = true :=
    fun _ => Host.isDigit_of_mem_toDigits
  have colonless {digits : List Char} (all : ∀ c ∈ digits, isDigit c = true) : ':' ∉ digits :=
    fun colon_mem => absurd (all ':' colon_mem) (by decide)
  rw [read?_eq_some_iff, text]
  -- Both ports are digits only, so either colon is the last one of the text.
  constructor
  · rintro ⟨front, back, split, denotes, -, all, backValue, -⟩
    rcases split_unique split (colonless digits) (colonless all) with ⟨rfl, rfl⟩
    exact ⟨denotes, backValue.symm.trans value⟩
  · rintro ⟨denotes, rfl⟩
    exact ⟨_, _, rfl, denotes, Nat.toDigits_ne_nil, digits, value, fits⟩

end Address

/-- A section on serving has an address exactly if what it binds is the text of a host on its own:
four octets, or an IPv6 address between brackets with a scope or without one. The address is that
host and the port of the section, whatever the text looks like. -/
theorem address_of_bindAddress (web : Config.Web) :
    (∀ address, web.address = .ok address ↔
      Host.Denotes web.bindAddress.toList address.host ∧ address.port = web.port.toNat) ∧
    (∀ host other, Host.Denotes web.bindAddress.toList host →
      Host.Denotes web.bindAddress.toList other → host = other) := by
  refine ⟨?_, fun _ _ => Host.Denotes.unique⟩
  intro address
  have ok : web.address = .ok address ↔ Address.read? web.addressText = some address := by
    unfold Config.Web.address
    cases Address.read? web.addressText <;> simp
  rw [ok]
  exact Address.read?_append_port web.port.toNat_lt

example : Address.read? "127.0.0.1:80:3000" = none := by decide +kernel

end Vitals.Web
