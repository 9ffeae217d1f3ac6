/-
  RecordQuery.Pattern.Basic

  Patterns for names, and matching them. A pattern is searched for anywhere in a text; anchors tie
  it to the ends. Matching reads the text once and keeps the patterns that what follows could still
  complete.
-/

import RecordQuery.Pattern.CharSet

namespace RecordQuery

/-- A pattern of characters, some of which have to stand at an end of the text. -/
inductive Pattern where
  | empty
  | chars (set : CharSet)
  | startOfText
  | endOfText
  | concat (left right : Pattern)
  | either (left right : Pattern)
  /-- `body` at least `least` times in a row, and at most `most` times if there is such a bound. -/
  | repeated (body : Pattern) (least : Nat) (most : Option Nat)
deriving DecidableEq, Repr

namespace Pattern

/-- Whether the pattern matches no characters at all, at a place that may be the start or the end
    of the text. -/
def nullable (atStart atEnd : Bool) : Pattern → Bool
  | .empty => true
  | .chars _ => false
  | .startOfText => atStart
  | .endOfText => atEnd
  | .concat left right => left.nullable atStart atEnd && right.nullable atStart atEnd
  | .either left right => left.nullable atStart atEnd || right.nullable atStart atEnd
  | .repeated body least _ => least == 0 || body.nullable atStart atEnd

/-- One pattern behind another. -/
def andThen : Pattern → Pattern → Pattern
  | .empty, right => right
  | left, right => .concat left right

/-- What can be left to match once `c` is read. Rounds of a repetition that match no characters
    here count towards `least`, so that no further round is needed. -/
def residues (atStart : Bool) (c : Char) : Pattern → List Pattern
  | .empty => []
  | .chars set => if set.contains c then [.empty] else []
  | .startOfText => []
  | .endOfText => []
  | .concat left right =>
    (left.residues atStart c).map (·.andThen right)
      ++ if left.nullable atStart false then right.residues atStart c else []
  | .either left right => left.residues atStart c ++ right.residues atStart c
  | .repeated body least most =>
    if most = some 0 then []
    else
      let least := if body.nullable atStart false then 0 else least - 1
      (body.residues atStart c).map (·.andThen (.repeated body least (most.map (· - 1))))

/-- Whether the pattern, begun at any place from here on, or one of `active` matches. -/
def search (p : Pattern) (active : List Pattern) (atStart : Bool) : List Char → Bool
  | [] => (p :: active).any (nullable atStart true)
  | c :: rest =>
    (p :: active).any (nullable atStart false)
      || p.search ((p :: active).flatMap (residues atStart c)).eraseDups false rest

/-- Whether the pattern matches some part of the text. -/
def isMatch (p : Pattern) (text : String) : Bool :=
  p.search [] true text.toList

end Pattern

end RecordQuery
