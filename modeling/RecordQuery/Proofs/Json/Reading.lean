/-
  RecordQuery.Proofs.Json.Reading

  Written JSON reads back. Whatever blanks a layout puts around items, and however deep a value
  nests, its text is read as the document of the value, and nothing behind it is touched. The reader
  has no bound on nesting; that comes with decoding.
-/

import RecordQuery.Proofs.Json.Scalar

namespace RecordQuery.Json

/-! ## Documents of values -/

mutual

/-- The document of a value, in which nothing is broken. -/
def doc : Json → Doc
  | .null => .null
  | .bool b => .bool b
  | .number n => .number (.ok n)
  | .string s => .string (.ok s)
  | .array items => .array (docItems items)
  | .object members => .object (docMembers members)

/-- The document of the rest of an array. -/
def docItems : List Json → Items
  | [] => .close
  | j :: items => .item j.doc (docItems items)

/-- The document of the rest of an object. -/
def docMembers : List (String × Json) → Members
  | [] => .close
  | (key, j) :: members => .member (.ok key) j.doc (docMembers members)

end

/-- Values all of whose numbers are integers of 64 bits. -/
inductive Integral : Json → Prop
  | null : Integral .null
  | bool (b : Bool) : Integral (.bool b)
  | integer {i : Int} (h : FitsInteger i) : Integral (.integer i)
  | string (s : String) : Integral (.string s)
  | array {items : List Json} (h : ∀ j ∈ items, Integral j) : Integral (.array items)
  | object {members : List (String × Json)} (h : ∀ m ∈ members, Integral m.2) :
    Integral (.object members)

/-! ## Blanks -/

/-- Characters that are skipped between the parts of a text. -/
def Blanks (cs : List Char) : Prop :=
  ∀ c ∈ cs, isSpace c = true

theorem blanks_nil : Blanks [] := by
  intro c hc
  cases hc

/-- A layout that puts nothing but blanks around items and behind the colons of members. -/
structure Layout.OfBlanks (l : Layout) : Prop where
  gap : ∀ level, Blanks (l.gap level).toList
  colon : ∃ blanks, l.colon.toList = ':' :: blanks ∧ Blanks blanks

theorem ofBlanks_compact : Layout.compact.OfBlanks where
  gap _ := blanks_nil
  colon := ⟨[], rfl, blanks_nil⟩

theorem ofBlanks_indented : Layout.indented.OfBlanks where
  gap level := by
    intro c hc
    rw [Layout.indented, String.toList_ofList] at hc
    rcases List.mem_cons.mp hc with rfl | hc
    · rfl
    · rw [List.eq_of_mem_replicate hc]
      rfl
  colon := by
    refine ⟨[' '], rfl, ?_⟩
    intro c hc
    rw [List.mem_singleton.mp hc]
    rfl

theorem skipSpace_blanks_append {blanks : List Char} (h : Blanks blanks) (cs : List Char) :
    skipSpace (blanks ++ cs) = skipSpace cs :=
  List.dropWhile_append_of_pos h

theorem skipSpace_cons {c : Char} (h : isSpace c = false) (cs : List Char) :
    skipSpace (c :: cs) = c :: cs :=
  List.dropWhile_cons_of_neg (by simp [h])

/-- A character that is no blank and closes no array stands in front: a value may start there. -/
def Starts (cs : List Char) : Prop :=
  ∃ c t, cs = c :: t ∧ isSpace c = false ∧ c ≠ ']'

theorem skipSpace_of_starts {blanks cs : List Char} (hb : Blanks blanks) (h : Starts cs) :
    skipSpace (blanks ++ cs) = cs := by
  obtain ⟨c, t, rfl, hc, -⟩ := h
  rw [skipSpace_blanks_append hb, skipSpace_cons hc]

/-- No blank goes on as a number. -/
theorem endsNumber_blanks_append {blanks cs : List Char} (h : Blanks blanks) (hcs : EndsNumber cs) :
    EndsNumber (blanks ++ cs) := by
  cases blanks with
  | nil => exact hcs
  | cons b blanks =>
      intro c hc
      obtain rfl : b = c := Option.some.inj hc
      have hb := h b List.mem_cons_self
      simp only [isSpace, Bool.or_eq_true, beq_iff_eq] at hb
      rcases hb with ((rfl | rfl) | rfl) | rfl <;> decide

/-- A character that no number goes on with ends one. -/
theorem endsNumber_cons {c : Char} (cs : List Char)
    (h : c.isDigit = false ∧ c ≠ '.' ∧ c ≠ 'e' ∧ c ≠ 'E') : EndsNumber (c :: cs) := by
  intro d hd
  obtain rfl : c = d := Option.some.inj hd
  exact h

/-! ## The steps of the reader -/

/-- The reading has a value and leaves `rest`. -/
def Read.Leaves {α : Type} {n : Nat} (r : Read α n) (a : α) (rest : List Char) : Prop :=
  ∃ h : rest.length < n, r = ⟨a, some ⟨rest, h⟩⟩

theorem Read.Leaves.lift {α β : Type} {m n : Nat} {r : Read α m} {a : α} {rest : List Char}
    (h : r.Leaves a rest) (f : α → β) (hle : m ≤ n) : (r.lift f hle).Leaves (f a) rest := by
  obtain ⟨hlt, rfl⟩ := h
  exact ⟨Nat.lt_of_lt_of_le hlt hle, rfl⟩

/-- A string is read up to its closing quote. -/
theorem leaves_readString (s : String) (rest : List Char) :
    (readString (s.toList.flatMap escapeChar ++ '"' :: rest)).Leaves (.string (.ok s)) rest := by
  obtain ⟨ps, ⟨hlt, hread⟩, hjoin⟩ := closes_escapedChars s.toList rest
  refine ⟨hlt, ?_⟩
  rw [readString, hread]
  simp only [closedString, hjoin, String.ofList_toList]

theorem matchWord_append (word rest : List Char) :
    ∃ h, matchWord word (word ++ rest) = .ok ⟨rest, h⟩ := by
  induction word with
  | nil => exact ⟨Nat.le_refl _, rfl⟩
  | cons w word ih =>
      obtain ⟨hle, ih⟩ := ih
      refine ⟨Nat.le_succ_of_le hle, ?_⟩
      show matchWord (w :: word) (w :: (word ++ rest)) = _
      rw [matchWord, if_pos rfl, bind_of_ok _ ih]
      rfl

/-- The letters of a word are read behind its first one. -/
theorem leaves_readWord (word : List Char) (d : Doc) (misspelt : Stop → Broken) (rest : List Char) :
    (readWord word d misspelt (word ++ rest)).Leaves d rest := by
  obtain ⟨hle, hmatch⟩ := matchWord_append word rest
  refine ⟨Nat.lt_succ_of_le hle, ?_⟩
  rw [readWord, hmatch]

section

variable {cs t rest : List Char}

/-- A quote opens a string. -/
theorem leaves_string {d : Doc} (hs : skipSpace cs = '"' :: t)
    (h : (readString t).Leaves d rest) : (readValue cs).Leaves d rest := by
  rw [readValue]
  split
  case h_2 t' heq =>
    obtain rfl := (List.cons.inj (hs.symm.trans heq)).2
    exact h.lift id _
  all_goals simp_all

/-- A bracket opens an array. -/
theorem leaves_array {items : Items} (hs : skipSpace cs = '[' :: t)
    (h : (readItems t).Leaves items rest) : (readValue cs).Leaves (.array items) rest := by
  rw [readValue]
  split
  case h_3 t' heq =>
    obtain rfl := (List.cons.inj (hs.symm.trans heq)).2
    exact h.lift Doc.array _
  all_goals simp_all

/-- A brace opens an object. -/
theorem leaves_object {members : Members} (hs : skipSpace cs = '\x7b' :: t)
    (h : (readMembers t).Leaves members rest) : (readValue cs).Leaves (.object members) rest := by
  rw [readValue]
  split
  case h_4 t' heq =>
    obtain rfl := (List.cons.inj (hs.symm.trans heq)).2
    exact h.lift Doc.object _
  all_goals simp_all

theorem leaves_null (hs : skipSpace cs = 'n' :: (['u', 'l', 'l'] ++ rest)) :
    (readValue cs).Leaves .null rest := by
  rw [readValue]
  split
  case h_5 t' heq =>
    obtain rfl := (List.cons.inj (hs.symm.trans heq)).2
    exact (leaves_readWord ['u', 'l', 'l'] .null _ rest).lift id _
  all_goals simp_all

theorem leaves_true (hs : skipSpace cs = 't' :: (['r', 'u', 'e'] ++ rest)) :
    (readValue cs).Leaves (.bool true) rest := by
  rw [readValue]
  split
  case h_6 t' heq =>
    obtain rfl := (List.cons.inj (hs.symm.trans heq)).2
    exact (leaves_readWord ['r', 'u', 'e'] (.bool true) _ rest).lift id _
  all_goals simp_all

theorem leaves_false (hs : skipSpace cs = 'f' :: (['a', 'l', 's', 'e'] ++ rest)) :
    (readValue cs).Leaves (.bool false) rest := by
  rw [readValue]
  split
  case h_7 t' heq =>
    obtain rfl := (List.cons.inj (hs.symm.trans heq)).2
    exact (leaves_readWord ['a', 'l', 's', 'e'] (.bool false) _ rest).lift id _
  all_goals simp_all

/-- A sign or a digit opens a number, which is read as far as it goes. -/
theorem leaves_number {c : Char} {n : JsonNumber} (hs : skipSpace cs = c :: t)
    (hc : (c == '-' || c.isDigit) = true) (h : Takes (readNumber (c :: t)) (.ok n) rest) :
    (readValue cs).Leaves (.number (.ok n)) rest := by
  obtain ⟨hlt, h⟩ := h
  rw [readValue]
  split
  case h_8 c' t' _ _ _ _ _ _ heq =>
    obtain ⟨rfl, rfl⟩ := List.cons.inj (hs.symm.trans heq)
    rw [if_pos hc]
    simp only [h]
    exact ⟨_, rfl⟩
  -- Neither a sign nor a digit starts anything else.
  all_goals
    next heq =>
      rw [hs] at heq
      cases heq <;> exact absurd hc (by decide)

theorem leaves_noItem (hs : skipSpace cs = ']' :: rest) : (readItems cs).Leaves .close rest := by
  rw [readItems]
  split
  case h_2 t' heq =>
    obtain rfl := (List.cons.inj (hs.symm.trans heq)).2
    exact ⟨_, rfl⟩
  all_goals simp_all

/-- Something else than the closing bracket is the first item of an array. -/
theorem leaves_firstItem {items : Items} (hs : skipSpace cs = t) (ht : Starts t)
    (h : (readItem t).Leaves items rest) : (readItems cs).Leaves items rest := by
  obtain ⟨c, u, rfl, -, hc⟩ := ht
  rw [readItems]
  split
  case h_2 u' heq => exact absurd (List.cons.inj (hs.symm.trans heq)).1 hc
  case h_3 c' u' _ heq =>
    obtain ⟨rfl, rfl⟩ := List.cons.inj (hs.symm.trans heq)
    exact h.lift id _
  all_goals simp_all

/-- An item is read, and then what stands behind it. -/
theorem leaves_item {d : Doc} {items : Items} (hd : (readValue cs).Leaves d t)
    (h : (readMoreItems t).Leaves items rest) : (readItem cs).Leaves (.item d items) rest := by
  obtain ⟨hlt, hd⟩ := hd
  rw [readItem]
  simp only [hd]
  exact h.lift (Items.item d) _

theorem leaves_endOfItems (hs : skipSpace cs = ']' :: rest) :
    (readMoreItems cs).Leaves .close rest := by
  rw [readMoreItems]
  split
  case h_2 t' heq =>
    obtain rfl := (List.cons.inj (hs.symm.trans heq)).2
    exact ⟨_, rfl⟩
  all_goals simp_all

/-- Behind a comma stands another item. -/
theorem leaves_moreItems {u : List Char} {items : Items} (hs : skipSpace cs = ',' :: u)
    (hu : skipSpace u = t) (ht : Starts t) (h : (readItem t).Leaves items rest) :
    (readMoreItems cs).Leaves items rest := by
  obtain ⟨c, v, rfl, -, hc⟩ := ht
  rw [readMoreItems]
  split
  case h_3 u' heq =>
    obtain rfl := (List.cons.inj (hs.symm.trans heq)).2
    dsimp only
    split
    case h_2 v' heq' => exact absurd (List.cons.inj (hu.symm.trans heq')).1 hc
    case h_3 c' v' _ heq' =>
      obtain ⟨rfl, rfl⟩ := List.cons.inj (hu.symm.trans heq')
      exact h.lift id _
    all_goals simp_all
  all_goals simp_all

theorem leaves_noMember (hs : skipSpace cs = '\x7d' :: rest) :
    (readMembers cs).Leaves .close rest := by
  rw [readMembers]
  split
  case h_2 t' heq =>
    obtain rfl := (List.cons.inj (hs.symm.trans heq)).2
    exact ⟨_, rfl⟩
  all_goals simp_all

/-- A quote opens the first member of an object. -/
theorem leaves_firstMember {members : Members} (hs : skipSpace cs = '"' :: t)
    (h : (readMember ('"' :: t)).Leaves members rest) : (readMembers cs).Leaves members rest := by
  rw [readMembers]
  split
  case h_3 c' t' _ heq =>
    obtain ⟨rfl, rfl⟩ := List.cons.inj (hs.symm.trans heq)
    exact h.lift id _
  all_goals simp_all

/-- A member is a key, a colon and a value, and then what stands behind it. -/
theorem leaves_member (key : String) {u v : List Char} {d : Doc} {members : Members}
    (hs : skipSpace u = ':' :: v) (hd : (readValue v).Leaves d t)
    (h : (readMoreMembers t).Leaves members rest) :
    (readMember ('"' :: (key.toList.flatMap escapeChar ++ '"' :: u))).Leaves
      (.member (.ok key) d members) rest := by
  obtain ⟨ps, ⟨_, hread⟩, hjoin⟩ := closes_escapedChars key.toList u
  obtain ⟨_, hd⟩ := hd
  have hkey : closedString ps = .ok key := by
    simp only [closedString, hjoin, String.ofList_toList]
  rw [readMember]
  simp only [hread]
  split
  case h_2 v' heq =>
    obtain rfl := (List.cons.inj (hs.symm.trans heq)).2
    simp only [hd, hkey]
    exact h.lift (Members.member (.ok key) d) _
  all_goals simp_all

theorem leaves_endOfMembers (hs : skipSpace cs = '\x7d' :: rest) :
    (readMoreMembers cs).Leaves .close rest := by
  rw [readMoreMembers]
  split
  case h_2 t' heq =>
    obtain rfl := (List.cons.inj (hs.symm.trans heq)).2
    exact ⟨_, rfl⟩
  all_goals simp_all

/-- Behind a comma stands another member. -/
theorem leaves_moreMembers {u : List Char} {members : Members} (hs : skipSpace cs = ',' :: u)
    (hu : skipSpace u = '"' :: t) (h : (readMember ('"' :: t)).Leaves members rest) :
    (readMoreMembers cs).Leaves members rest := by
  rw [readMoreMembers]
  split
  case h_3 u' heq =>
    obtain rfl := (List.cons.inj (hs.symm.trans heq)).2
    dsimp only
    split
    case h_3 c' t' _ heq' =>
      obtain ⟨rfl, rfl⟩ := List.cons.inj (hu.symm.trans heq')
      exact h.lift id _
    all_goals simp_all
  all_goals simp_all

end

/-! ## Written values -/

section

variable {l : Layout} {level : Nat}

theorem write_string_append (s : String) (rest : List Char) :
    (writeString s).toList ++ rest = '"' :: (s.toList.flatMap escapeChar ++ '"' :: rest) := by
  rw [toList_writeString, List.cons_append, List.append_assoc]
  rfl

theorem write_items_append (j : Json) (items : List Json) (rest : List Char) :
    (write l level (.array (j :: items))).toList ++ rest =
      '[' :: ((l.gap (level + 1)).toList ++ ((write l (level + 1) j).toList ++
        ((writeItems l (level + 1) items).toList ++ ((l.gap level).toList ++ ']' :: rest)))) := by
  rw [write]
  simp only [String.toList_append, List.append_assoc]
  rfl

theorem write_members_append (key : String) (j : Json) (members : List (String × Json))
    (rest : List Char) :
    (write l level (.object ((key, j) :: members))).toList ++ rest =
      '\x7b' :: ((l.gap (level + 1)).toList ++ '"' :: (key.toList.flatMap escapeChar ++
        '"' :: (l.colon.toList ++ ((write l (level + 1) j).toList ++
          ((writeMembers l (level + 1) members).toList ++
            ((l.gap level).toList ++ '\x7d' :: rest)))))) := by
  rw [write]
  simp only [String.toList_append, List.append_assoc]
  rw [write_string_append]
  rfl

theorem writeItems_cons_append (j : Json) (items : List Json) (rest : List Char) :
    (writeItems l level (j :: items)).toList ++ rest =
      ',' :: ((l.gap level).toList ++
        ((write l level j).toList ++ ((writeItems l level items).toList ++ rest))) := by
  rw [writeItems]
  simp only [String.toList_append, List.append_assoc]
  rfl

theorem writeMembers_cons_append (key : String) (j : Json) (members : List (String × Json))
    (rest : List Char) :
    (writeMembers l level ((key, j) :: members)).toList ++ rest =
      ',' :: ((l.gap level).toList ++ '"' :: (key.toList.flatMap escapeChar ++
        '"' :: (l.colon.toList ++ ((write l level j).toList ++
          ((writeMembers l level members).toList ++ rest))))) := by
  rw [writeMembers]
  simp only [String.toList_append, List.append_assoc]
  rw [write_string_append]
  rfl

/-- An integer starts with a sign or a digit. -/
theorem writeNumber_eq_cons (i : Int) :
    ∃ c cs, (writeNumber (.integer i)).toList = c :: cs ∧ (c == '-' || c.isDigit) = true := by
  cases i with
  | ofNat n =>
      obtain ⟨c, cs, hcs, -, -⟩ := Text.toDigits_eq_cons n
      have hc : c.isDigit = true := by
        apply Text.isDigit_of_mem_toDigits (n := n)
        rw [hcs]
        exact List.mem_cons_self
      refine ⟨c, cs, ?_, by rw [hc, Bool.or_true]⟩
      exact Eq.trans Nat.toList_repr hcs
  | negSucc n =>
      refine ⟨'-', (Nat.repr (n + 1)).toList, ?_, rfl⟩
      show ("-" ++ Nat.repr (n + 1)).toList = _
      rw [String.toList_append]
      rfl

/-- A number starts a value. -/
theorem starts_of_number {c : Char} (hc : (c == '-' || c.isDigit) = true) (cs : List Char) :
    Starts (c :: cs) := by
  refine ⟨c, cs, rfl, ?_, ?_⟩
  · rw [Bool.eq_false_iff]
    intro hspace
    simp only [isSpace, Bool.or_eq_true, beq_iff_eq] at hspace
    rcases hspace with ((rfl | rfl) | rfl) | rfl <;> exact absurd hc (by decide)
  · rintro rfl
    exact absurd hc (by decide)

/-- A value can start where a value is written. -/
theorem starts_write (l : Layout) (level : Nat) {j : Json} (hj : j.Integral) (rest : List Char) :
    Starts ((write l level j).toList ++ rest) := by
  cases hj with
  | null =>
      rw [write]
      exact ⟨'n', _, rfl, rfl, by decide⟩
  | bool b =>
      cases b with
      | true =>
          rw [write]
          exact ⟨'t', _, rfl, rfl, by decide⟩
      | false =>
          rw [write]
          exact ⟨'f', _, rfl, rfl, by decide⟩
  | @integer i h =>
      obtain ⟨c, cs, hcs, hc⟩ := writeNumber_eq_cons i
      rw [integer, write, hcs]
      exact starts_of_number hc _
  | string s =>
      rw [write, write_string_append]
      exact ⟨'"', _, rfl, rfl, by decide⟩
  | @array items h =>
      cases items with
      | nil =>
          rw [write]
          exact ⟨'[', _, rfl, rfl, by decide⟩
      | cons j items =>
          rw [write_items_append]
          exact ⟨'[', _, rfl, rfl, by decide⟩
  | @object members h =>
      cases members with
      | nil =>
          rw [write]
          exact ⟨'\x7b', _, rfl, rfl, by decide⟩
      | cons m members =>
          rw [write_members_append]
          exact ⟨'\x7b', _, rfl, rfl, by decide⟩

end

/-- Behind an item stands a comma or the end of the array, neither of which is part of a number. -/
theorem endsNumber_writeItems (l : Layout) (level : Nat) (items : List Json) {rest : List Char}
    (hrest : EndsNumber rest) : EndsNumber ((writeItems l level items).toList ++ rest) := by
  cases items with
  | nil =>
      rw [writeItems]
      exact hrest
  | cons j items =>
      rw [writeItems_cons_append]
      exact endsNumber_cons _ (by decide)

/-- Behind a member stands a comma or the end of the object, neither of which is part of a number.
    -/
theorem endsNumber_writeMembers (l : Layout) (level : Nat) (members : List (String × Json))
    {rest : List Char} (hrest : EndsNumber rest) :
    EndsNumber ((writeMembers l level members).toList ++ rest) := by
  cases members with
  | nil =>
      rw [writeMembers]
      exact hrest
  | cons m members =>
      rw [writeMembers_cons_append]
      exact endsNumber_cons _ (by decide)

/-- The text of a value is read behind blanks, whatever follows that is not part of a number. -/
def Readable (text : List Char) (d : Doc) : Prop :=
  ∀ blanks rest : List Char, Blanks blanks → EndsNumber rest →
    (readValue (blanks ++ (text ++ rest))).Leaves d rest

section

variable {l : Layout} {level : Nat} {blanks rest : List Char} {j : Json}

/-- An item is read with those behind it. -/
theorem leaves_writeItem {items : List Json} (hj : Readable (write l level j).toList j.doc)
    (hb : Blanks blanks)
    (hitems : (readMoreItems ((writeItems l level items).toList ++ (blanks ++ ']' :: rest))).Leaves
      (docItems items) rest) :
    (readItem ((write l level j).toList ++
      ((writeItems l level items).toList ++ (blanks ++ ']' :: rest)))).Leaves
        (docItems (j :: items)) rest := by
  have hends : EndsNumber (blanks ++ ']' :: rest) :=
    endsNumber_blanks_append hb (endsNumber_cons rest (by decide))
  have hvalue := hj [] _ blanks_nil (endsNumber_writeItems l level items hends)
  rw [docItems]
  exact leaves_item hvalue hitems

/-- A member is read with those behind it. -/
theorem leaves_writeMember {members : List (String × Json)} (hl : l.OfBlanks) (key : String)
    (hj : Readable (write l level j).toList j.doc) (hb : Blanks blanks)
    (hmembers : (readMoreMembers ((writeMembers l level members).toList ++
      (blanks ++ '\x7d' :: rest))).Leaves (docMembers members) rest) :
    (readMember ('"' :: (key.toList.flatMap escapeChar ++ '"' :: (l.colon.toList ++
      ((write l level j).toList ++ ((writeMembers l level members).toList ++
        (blanks ++ '\x7d' :: rest))))))).Leaves (docMembers ((key, j) :: members)) rest := by
  obtain ⟨colonBlanks, hcolon, hcolonBlanks⟩ := hl.colon
  have hends : EndsNumber (blanks ++ '\x7d' :: rest) :=
    endsNumber_blanks_append hb (endsNumber_cons rest (by decide))
  have hvalue := hj _ _ hcolonBlanks (endsNumber_writeMembers l level members hends)
  rw [docMembers, hcolon]
  exact leaves_member key rfl hvalue hmembers

end

mutual

/-- The text of a value is read as its document. -/
theorem readable_write {l : Layout} (hl : l.OfBlanks) (level : Nat) :
    ∀ j : Json, j.Integral → Readable (write l level j).toList j.doc
  | .null, _, blanks, rest, hb, _ => by
    rw [write, doc]
    apply leaves_null
    rw [skipSpace_blanks_append hb]
    rfl
  | .bool true, _, blanks, rest, hb, _ => by
    rw [write, doc]
    apply leaves_true
    rw [skipSpace_blanks_append hb]
    rfl
  | .bool false, _, blanks, rest, hb, _ => by
    rw [write, doc]
    apply leaves_false
    rw [skipSpace_blanks_append hb]
    rfl
  | .number n, hj, blanks, rest, hb, hrest => by
    cases hj with
    | @integer i h =>
        obtain ⟨c, cs, hcs, hc⟩ := writeNumber_eq_cons i
        have hread := takes_writeNumber h hrest
        rw [write, doc]
        rw [hcs] at hread ⊢
        exact leaves_number (skipSpace_of_starts hb (starts_of_number hc _)) hc hread
  | .string s, _, blanks, rest, hb, _ => by
    rw [write, doc, write_string_append]
    apply leaves_string _ (leaves_readString s rest)
    rw [skipSpace_blanks_append hb]
    rfl
  | .array [], _, blanks, rest, hb, _ => by
    have hs : skipSpace (blanks ++ '[' :: ']' :: rest) = '[' :: ']' :: rest := by
      rw [skipSpace_blanks_append hb]
      rfl
    rw [write, doc, docItems]
    exact leaves_array hs (leaves_noItem rfl)
  | .array (j :: items), hj, blanks, rest, hb, _ => by
    cases hj with
    | array h =>
        have hj := h j List.mem_cons_self
        have hitems := leaves_writeItems hl (level + 1) items
          (fun i hi => h i (List.mem_cons_of_mem j hi)) (hl.gap level) rest
        have hitem := leaves_writeItem (readable_write hl (level + 1) j hj) (hl.gap level) hitems
        rw [write_items_append, doc]
        apply leaves_array (skipSpace_blanks_append hb _)
        have hstarts := starts_write l (level + 1) hj
          ((writeItems l (level + 1) items).toList ++ ((l.gap level).toList ++ ']' :: rest))
        exact leaves_firstItem (skipSpace_of_starts (hl.gap _) hstarts) hstarts hitem
  | .object [], _, blanks, rest, hb, _ => by
    have hs : skipSpace (blanks ++ '\x7b' :: '\x7d' :: rest) = '\x7b' :: '\x7d' :: rest := by
      rw [skipSpace_blanks_append hb]
      rfl
    rw [write, doc, docMembers]
    exact leaves_object hs (leaves_noMember rfl)
  | .object ((key, j) :: members), hj, blanks, rest, hb, _ => by
    cases hj with
    | object h =>
        have hj := h (key, j) List.mem_cons_self
        have hmembers := leaves_writeMembers hl (level + 1) members
          (fun m hm => h m (List.mem_cons_of_mem _ hm)) (hl.gap level) rest
        have hmember := leaves_writeMember hl key (readable_write hl (level + 1) j hj)
          (hl.gap level) hmembers
        rw [write_members_append, doc]
        apply leaves_object (skipSpace_blanks_append hb _)
        exact leaves_firstMember (skipSpace_blanks_append (hl.gap _) _) hmember

/-- The items of an array are read behind the first one, up to the closing bracket. -/
theorem leaves_writeItems {l : Layout} (hl : l.OfBlanks) (level : Nat) :
    ∀ items : List Json, (∀ j ∈ items, j.Integral) →
      ∀ {blanks : List Char}, Blanks blanks → ∀ rest : List Char,
        (readMoreItems ((writeItems l level items).toList ++ (blanks ++ ']' :: rest))).Leaves
          (docItems items) rest
  | [], _, blanks, hb, rest => by
    rw [writeItems, docItems]
    exact leaves_endOfItems (skipSpace_blanks_append hb _)
  | j :: items, h, blanks, hb, rest => by
    have hj := h j List.mem_cons_self
    have hitems := leaves_writeItems hl level items
      (fun i hi => h i (List.mem_cons_of_mem j hi)) hb rest
    have hitem := leaves_writeItem (readable_write hl level j hj) hb hitems
    have hstarts := starts_write l level hj
      ((writeItems l level items).toList ++ (blanks ++ ']' :: rest))
    rw [writeItems_cons_append]
    exact leaves_moreItems rfl (skipSpace_of_starts (hl.gap level) hstarts) hstarts hitem

/-- The members of an object are read behind the first one, up to the closing brace. -/
theorem leaves_writeMembers {l : Layout} (hl : l.OfBlanks) (level : Nat) :
    ∀ members : List (String × Json), (∀ m ∈ members, m.2.Integral) →
      ∀ {blanks : List Char}, Blanks blanks → ∀ rest : List Char,
        (readMoreMembers ((writeMembers l level members).toList ++
          (blanks ++ '\x7d' :: rest))).Leaves (docMembers members) rest
  | [], _, blanks, hb, rest => by
    rw [writeMembers, docMembers]
    exact leaves_endOfMembers (skipSpace_blanks_append hb _)
  | (key, j) :: members, h, blanks, hb, rest => by
    have hj := h (key, j) List.mem_cons_self
    have hmembers := leaves_writeMembers hl level members
      (fun m hm => h m (List.mem_cons_of_mem _ hm)) hb rest
    have hmember := leaves_writeMember hl key (readable_write hl level j hj) hb hmembers
    rw [writeMembers_cons_append]
    exact leaves_moreMembers rfl (skipSpace_blanks_append (hl.gap level) _) hmember

end

/-- A written value is the whole text: nothing stands behind it. -/
theorem readText_write {l : Layout} (hl : l.OfBlanks) (level : Nat) {j : Json} (hj : j.Integral) :
    readText (write l level j) = ⟨j.doc, false⟩ := by
  have hend : EndsNumber [] := by
    intro c hc
    cases hc
  have hread := readable_write hl level j hj [] [] blanks_nil hend
  rw [List.nil_append, List.append_nil] at hread
  obtain ⟨hlt, hread⟩ := hread
  rw [readText, hread]
  rfl

theorem readText_compact {j : Json} (hj : j.Integral) : readText j.compact = ⟨j.doc, false⟩ :=
  readText_write ofBlanks_compact 0 hj

theorem readText_indented {j : Json} (hj : j.Integral) : readText j.indented = ⟨j.doc, false⟩ :=
  readText_write ofBlanks_indented 0 hj

end RecordQuery.Json
