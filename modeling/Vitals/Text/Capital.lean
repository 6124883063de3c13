/-!
# Capital letters

The capital form of a text, as far as letters of ASCII come into it: the small letters of ASCII,
and the few other letters whose capital form consists of letters of ASCII. Every other character
stands for itself; its capital form, if it has one, holds a character beyond ASCII as well.
-/

namespace Vitals.Text

def capital (c : Char) : List Char :=
  match c with
  | 'ß' => ['S', 'S']
  | 'ı' => ['I']
  | 'ſ' => ['S']
  | 'ﬀ' => ['F', 'F']
  | 'ﬁ' => ['F', 'I']
  | 'ﬂ' => ['F', 'L']
  | 'ﬃ' => ['F', 'F', 'I']
  | 'ﬄ' => ['F', 'F', 'L']
  | 'ﬅ' => ['S', 'T']
  | 'ﬆ' => ['S', 'T']
  | c => [c.toUpper]

def capitals (text : String) : String :=
  String.ofList (text.toList.flatMap capital)

end Vitals.Text
