import Vitals.Logging.Event
import Vitals.Text.Reader

/-!
# Log filters

Which events are written is said by rules. A rule names the beginning of a target, fields that the
event must have, or neither, and a verbosity. Of the rules that concern an event the most specific
one decides; an event that no rule concerns is not written.

Rules are written as directives with commas between them: a verbosity alone, a target alone, or a
target, an equals sign and a verbosity; behind the target there may be a bracket that names the
span around an event and its fields. A directive that cannot be read is passed over.
-/

namespace Vitals.Logging

/-- A rule about the events of some targets that have some fields. -/
structure Rule where
  target : Option String
  fields : List String
  verbosity : Verbosity
  deriving DecidableEq, Repr

namespace Rule

def concerns (rule : Rule) (event : Event) : Bool :=
  (match rule.target with
    | some target => target.toList.isPrefixOf event.target.toList
    | none => true)
  && rule.fields.all fun field => field == "message" || event.fields.any (·.1 == field)

/-- How specific the target of a rule is: the longer, the more, and no target is the least. -/
def reach (rule : Rule) : Nat :=
  match rule.target with
  | some target => target.utf8ByteSize + 1
  | none => 0

/-- The rule decides where the other one concerns an event too: its target is more specific, or it
names a field, or its field comes later in the alphabet. Of rules that name the same the later one
decides. -/
def overrides (later earlier : Rule) : Bool :=
  earlier.reach < later.reach
    || (earlier.reach == later.reach && !decide (later.fields < earlier.fields))

end Rule

/-- What a directive says: a rule, or something about spans, of which there are none. -/
inductive Directive where
  | rule (rule : Rule)
  | onSpans
  deriving DecidableEq, Repr

namespace Directive

/-- The verbosity of a number, from nothing to everything. -/
def verbosityOfNumber? : Nat → Option Verbosity
  | 0 => some .off
  | 1 => some (.upTo .error)
  | 2 => some (.upTo .warn)
  | 3 => some (.upTo .info)
  | 4 => some (.upTo .debug)
  | 5 => some (.upTo .trace)
  | _ => none

/-- The verbosity of a name or of a number. -/
def verbosity? (chars : List Char) : Option Verbosity :=
  let digits :=
    match chars with
    | '+' :: digits => digits
    | digits => digits
  if digits ≠ [] ∧ digits.all Text.isDigit then verbosityOfNumber? (Text.ofDigits digits)
  else Verbosity.ofName? (String.ofList chars)

/-- The characters of a text from one place up to another one. -/
def between (whole : List Char) (start stop : Nat) : List Char :=
  (whole.drop start).take (stop - start)

/-- The verbosity at a place of a directive where `rest` was found: what stands behind an equals
sign, up to the end of the whole text. Nothing there means everything. -/
def levelAt? (whole : List Char) (place : Nat) : List Char → Option Verbosity
  | [] => some (.upTo .trace)
  | '=' :: _ =>
      match whole.drop (place + 1) with
      | [] => some (.upTo .trace)
      | level => verbosity? level
  | _ => none

/-- The directive of a target and what was found behind its bracket, at a place of the whole text.
The bracket holds the name of a span, or fields between braces behind it; a field may have a
value. -/
def ofBracket? (whole : List Char) (target : Option String) (place : Nat) (chars : List Char) :
    Option Directive := do
  let inside := chars.takeWhile fun c => c != ']' && c != '\x7b'
  let stop := place + inside.length
  match chars.drop inside.length with
  | ']' :: rest =>
      discard <| levelAt? whole (stop + 1) rest
      return .onSpans
  | '\x7b' :: rest =>
      let field := rest.takeWhile (· != '\x7d')
      let fieldStop := stop + 1 + field.length
      match rest.drop field.length with
      | '\x7d' :: ']' :: rest =>
          let verbosity ← levelAt? whole (fieldStop + 2) rest
          let field := between whole (stop + 1) fieldStop
          if field = [] then none
          else if between whole place stop = [] ∧ !field.contains '=' then
            return .rule ⟨target, [String.ofList field], verbosity⟩
          else return .onSpans
      | _ => none
  | _ => none

/-- A character that the target of a directive can begin with. -/
def beginsTarget (c : Char) : Bool :=
  c.isAlphanum || 0x80 ≤ c.toNat || ['-', ':', '_'].contains c

/-- The directive that was found in characters of a whole text. The places of its parts are those
among the characters, but the parts are taken from the whole text. -/
def ofChars? (whole chars : List Char) : Option Directive :=
  match chars with
  | '[' :: inside => ofBracket? whole none 1 inside
  | first :: _ =>
      if !beginsTarget first then none
      else
        let front := chars.takeWhile fun c => c != '=' && c != '['
        let target := some (String.ofList (whole.take front.length))
        match chars.drop front.length with
        | '[' :: inside => ofBracket? whole target (front.length + 1) inside
        | [] =>
            match verbosity? whole with
            | some verbosity => some (.rule ⟨none, [], verbosity⟩)
            | none => some (.rule ⟨some (String.ofList whole), [], .upTo .trace⟩)
        | rest =>
            (levelAt? whole front.length rest).map fun verbosity => .rule ⟨target, [], verbosity⟩
  | [] => none

/-- The directive that a text writes. It is looked for between the blanks around it, but its parts
are taken from the text with the blanks; so blanks do not hide a directive, and they change what it
says. -/
def read? (text : String) : Option Directive :=
  let whole := text.toList
  ofChars? whole (Text.dropBlanks (Text.dropBlanks whole).reverse).reverse

def rule? : Directive → Option Rule
  | .rule found => some found
  | .onSpans => none

end Directive

/-- The rules by which events are written. -/
structure Filter where
  rules : List Rule
  deriving DecidableEq, Repr

namespace Filter

/-- The filter of the directives in a text; a verbosity holds for everything if there are none. -/
def ofText (fallback : Verbosity) (text : String) : Filter :=
  let directives := (text.splitOn ",").filterMap Directive.read?
  if directives.isEmpty then ⟨[⟨none, [], fallback⟩]⟩
  else ⟨directives.filterMap Directive.rule?⟩

/-- The rule that decides about an event. -/
def decisive? (filter : Filter) (event : Event) : Option Rule :=
  (filter.rules.filter (·.concerns event)).foldl
    (fun best rule =>
      match best with
      | some earlier => if rule.overrides earlier then some rule else some earlier
      | none => some rule)
    none

def allows (filter : Filter) (event : Event) : Bool :=
  match filter.decisive? event with
  | some rule => rule.verbosity.allows event.level
  | none => false

end Filter

end Vitals.Logging
