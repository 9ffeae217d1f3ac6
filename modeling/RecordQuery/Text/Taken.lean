/-
  RecordQuery.Text.Taken

  Values read off the front of a text. The bound on what is left is what makes readers that call
  each other end.
-/

namespace RecordQuery.Text

/-- What follows a character is shorter than the text. -/
theorem length_lt_cons (c : Char) (cs : List Char) : cs.length < (c :: cs).length :=
  Nat.lt_succ_self _

/-- What follows two characters is shorter than the text. -/
theorem length_lt_cons_cons (c d : Char) (cs : List Char) :
    cs.length < (c :: d :: cs).length :=
  Nat.lt_trans (length_lt_cons d cs) (length_lt_cons c (d :: cs))

/-- A value, and what is left of a text of `n` characters once it is read. -/
structure Taken (α : Type) (n : Nat) where
  value : α
  rest : List Char
  shorter : rest.length < n

namespace Taken

variable {α β : Type} {m n : Nat}

/-- The same reading, seen from a longer text. -/
def widen (t : Taken α m) (h : m ≤ n) : Taken α n :=
  ⟨t.value, t.rest, Nat.lt_of_lt_of_le t.shorter h⟩

/-- The same reading, with another value. -/
def map (f : α → β) (t : Taken α n) : Taken β n :=
  ⟨f t.value, t.rest, t.shorter⟩

/-- Less is left behind the character that follows a reading. -/
theorem length_lt_of_rest_eq {t : Taken α n} {c : Char} {cs : List Char}
    (h : t.rest = c :: cs) : cs.length < n :=
  Nat.lt_trans (length_lt_cons c cs) (h ▸ t.shorter)

end Taken

end RecordQuery.Text
