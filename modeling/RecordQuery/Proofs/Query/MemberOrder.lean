/-
  RecordQuery.Proofs.Query.MemberOrder

  The query that a JSON text holds does not depend on the order of members. A part of a query is
  filled by one key and only while it is empty, so what has been added says which members there were
  and not how they were arranged. The tag of selectors and criteria stands wherever it likes, and
  the criteria inside of others are looked at only when their own members are added.
-/

import RecordQuery.Proofs.Json.Reading
import RecordQuery.Proofs.Json.ReorderedValue
import RecordQuery.Proofs.Query.Parts

namespace RecordQuery

open Json

/-! ## Selectors -/

namespace SelectorParts

variable {p p' p'' : SelectorParts} {key key' : String} {j j' : Json}

/-- A field is the same for a value whose members stand in another order. -/
theorem Adds.reordered (h : Adds p key j p') (hj : Reordered j j') : Adds p key j' p' := by
  cases h with
  | simpleField h => exact .simpleField (keeps_asString hj h)
  | compoundFields h => exact .compoundFields (keeps_asStrings hj h)
  | functionName h => exact .functionName (keeps_asString hj h)
  | functionField h => exact .functionField (keeps_asString hj h)
  | other hkey => exact .other hkey

/-- No field is added twice, and no addition looks at what another one adds. -/
theorem Adds.interchange (h : Adds p key j p') (h' : Adds p' key' j' p'') :
    ∃ q, Adds p key' j' q ∧ Adds q key j p'' := by
  cases h <;> cases h' <;>
    exact ⟨_, by constructor <;> assumption, by constructor; assumption⟩

/-- The fields are the same however the members that they are read from are arranged. -/
theorem keeps_addMembers : ∀ {ms ms' : List (String × Json)}, ReorderedMembers ms ms' →
    ∀ {p q : SelectorParts}, ms.foldlM (fun p (key, j) => p.add key j) p = .ok q →
      ms'.foldlM (fun p (key, j) => p.add key j) p = .ok q
  | _, _, .refl _, p, q, h => h
  | _, _, .cons key hj hms, p, q, h => by
    obtain ⟨p', hp', hrest⟩ := bind_eq_ok.mp h
    have hadd := add_eq_ok.mpr ((add_eq_ok.mp hp').reordered hj)
    exact bind_eq_ok.mpr ⟨p', hadd, keeps_addMembers hms hrest⟩
  | _, _, .swap _ _ _, p, q, h => by
    obtain ⟨p', hp', hmore⟩ := bind_eq_ok.mp h
    obtain ⟨p'', hp'', hrest⟩ := bind_eq_ok.mp hmore
    obtain ⟨r, hr, hr'⟩ := (add_eq_ok.mp hp').interchange (add_eq_ok.mp hp'')
    exact bind_eq_ok.mpr ⟨r, add_eq_ok.mpr hr, bind_eq_ok.mpr ⟨p'', add_eq_ok.mpr hr', hrest⟩⟩
  | _, _, .trans hms hms', p, q, h => keeps_addMembers hms' (keeps_addMembers hms h)

theorem keeps_addItems : ∀ {js js' : List Json}, ReorderedItems js js' →
    ∀ {names : List String} {p q : SelectorParts}, p.addItems names js = .ok q →
      p.addItems names js' = .ok q
  | _, _, .refl _, names, p, q, h => h
  | _, _, .cons hj hjs, [], p, q, h => by cases h
  | _, _, .cons hj hjs, name :: names, p, q, h => by
    obtain ⟨p', hp', hrest⟩ := bind_eq_ok.mp h
    have hadd := add_eq_ok.mpr ((add_eq_ok.mp hp').reordered hj)
    exact bind_eq_ok.mpr ⟨p', hadd, keeps_addItems hjs hrest⟩

end SelectorParts

/-- A selector is read alike in any order of its members. -/
theorem Selector.keeps_ofDoc (n : Nat) : Keeps Doc.Reordered (Selector.ofDoc n) := by
  intro d d' hd s h
  obtain ⟨⟨p, fields⟩, htagged, h⟩ := bind_eq_ok.mp h
  obtain ⟨fields', htagged', hfields⟩ := hd.tagged htagged
  refine bind_eq_ok.mpr ⟨(p, fields'), htagged', ?_⟩
  cases hfields with
  | refl => exact h
  | named hms =>
      obtain ⟨q, hq, hfinish⟩ := bind_eq_ok.mp h
      exact bind_eq_ok.mpr ⟨q, SelectorParts.keeps_addMembers hms hq, hfinish⟩
  | positional hjs =>
      obtain ⟨q, hq, hfinish⟩ := bind_eq_ok.mp h
      exact bind_eq_ok.mpr ⟨q, SelectorParts.keeps_addItems hjs hq, hfinish⟩

/-! ## Criteria -/

namespace CriteriaParts

variable {p p' p'' : CriteriaParts} {key key' : String} {j j' : Json}
  {nested nested' : Decoded Criteria}

/-- A field of criteria is the same for a value whose members stand in another order, if the
    criteria inside of it are. -/
theorem Adds.reordered (h : Adds p key j nested p') (hj : Reordered j j')
    (hnested : ∀ c, nested = .ok c → nested' = .ok c) : Adds p key j' nested' p' := by
  cases h with
  | valueField h => exact .valueField (keeps_asString hj h)
  | valueOp h => exact .valueOp (keeps_asVariant _ _ hj h)
  | valueText h => exact .valueText (keeps_asString hj h)
  | rangeField h => exact .rangeField (keeps_asString hj h)
  | rangeOp h => exact .rangeOp (keeps_asVariant _ _ hj h)
  | rangeBound h => exact .rangeBound (keeps_asSigned hj h)
  | indexField h => exact .indexField (keeps_asString hj h)
  | indexText h => exact .indexText (keeps_asString hj h)
  | compoundOp h => exact .compoundOp (keeps_asVariant _ _ hj h)
  | compoundLeft h => exact .compoundLeft (hnested _ h)
  | compoundRight h => exact .compoundRight (hnested _ h)
  | negated h => exact .negated (hnested _ h)
  | other hkey => exact .other hkey

/-- As with selectors, two fields may be added either way round. -/
theorem Adds.interchange (h : Adds p key j nested p') (h' : Adds p' key' j' nested' p'') :
    ∃ q, Adds p key' j' nested' q ∧ Adds q key j nested p'' := by
  cases h <;> cases h' <;>
    exact ⟨_, by constructor <;> assumption, by constructor; assumption⟩

end CriteriaParts

namespace Criteria

open CriteriaParts (Adds add_eq_ok)

theorem ofMembers_cons_eq_ok {p : CriteriaParts} {key : String} {j : Json}
    {ms : List (String × Json)} {c : Criteria} :
    ofMembers p ((key, j) :: ms) = .ok c ↔
      ∃ p', Adds p key j (ofJson j) p' ∧ ofMembers p' ms = .ok c := by
  simp only [ofMembers, bind_eq_ok, add_eq_ok]

mutual

/-- Criteria are the same however the members of their object are arranged, and those of the
    criteria inside of them. -/
theorem keeps_ofJson : ∀ {j j' : Json}, Reordered j j' → ∀ {c : Criteria}, ofJson j = .ok c →
    ofJson j' = .ok c
  | _, _, .refl _, c, h => h
  | _, _, .array (.refl _), c, h => h
  | _, _, .array (.cons hj hjs), c, h => by
    rw [ofJson] at h ⊢
    obtain ⟨p, hp, hrest⟩ := bind_eq_ok.mp h
    rw [keeps_asTag _ _ hj hp, ok_bind]
    exact keeps_ofItems hjs hrest
  | _, _, .object hms, c, h => by
    rw [ofJson] at h ⊢
    obtain ⟨p, hp, hrest⟩ := bind_eq_ok.mp h
    rw [hms.tagAmong hp, ok_bind]
    exact keeps_ofMembers hms hrest

theorem keeps_ofItems : ∀ {js js' : List Json}, ReorderedItems js js' → ∀ {names : List String}
    {p : CriteriaParts} {c : Criteria}, ofItems p names js = .ok c → ofItems p names js' = .ok c
  | _, _, .refl _, names, p, c, h => h
  | _, _, .cons hj hjs, [], p, c, h => by cases h
  | _, _, .cons hj hjs, name :: names, p, c, h => by
    rw [ofItems] at h ⊢
    obtain ⟨p', hp', hrest⟩ := bind_eq_ok.mp h
    have hadd := (add_eq_ok.mp hp').reordered hj fun _ => keeps_ofJson hj
    rw [add_eq_ok.mpr hadd, ok_bind]
    exact keeps_ofItems hjs hrest

theorem keeps_ofMembers : ∀ {ms ms' : List (String × Json)}, ReorderedMembers ms ms' →
    ∀ {p : CriteriaParts} {c : Criteria}, ofMembers p ms = .ok c → ofMembers p ms' = .ok c
  | _, _, .refl _, p, c, h => h
  | _, _, .cons key hj hms, p, c, h => by
    obtain ⟨p', hadd, hrest⟩ := ofMembers_cons_eq_ok.mp h
    have hadd' := hadd.reordered hj fun _ => keeps_ofJson hj
    exact ofMembers_cons_eq_ok.mpr ⟨p', hadd', keeps_ofMembers hms hrest⟩
  | _, _, .swap (key, j) (key', j') ms, p, c, h => by
    obtain ⟨p', hp', hmore⟩ := ofMembers_cons_eq_ok.mp h
    obtain ⟨p'', hp'', hrest⟩ := ofMembers_cons_eq_ok.mp hmore
    obtain ⟨r, hr, hr'⟩ := hp'.interchange hp''
    exact ofMembers_cons_eq_ok.mpr ⟨r, hr, ofMembers_cons_eq_ok.mpr ⟨p'', hr', hrest⟩⟩
  | _, _, .trans hms hms', p, c, h => keeps_ofMembers hms' (keeps_ofMembers hms h)

end

theorem keeps_ofDoc (n : Nat) : Keeps Doc.Reordered (ofDoc n) := by
  intro d d' hd c h
  obtain ⟨⟨p, fields⟩, htagged, h⟩ := bind_eq_ok.mp h
  obtain ⟨fields', htagged', hfields⟩ := hd.tagged htagged
  refine bind_eq_ok.mpr ⟨(p, fields'), htagged', ?_⟩
  cases hfields with
  | refl => exact h
  | named hms => exact keeps_ofMembers hms h
  | positional hjs => exact keeps_ofItems hjs h

end Criteria

/-! ## Sort keys -/

namespace OrderSpecParts

theorem keeps_add (n : Nat) (p : OrderSpecParts) (key : String) :
    Keeps Doc.Reordered (add n p key) := by
  intro d d' hd p' h
  refine add_eq_ok.mpr ?_
  cases add_eq_ok.mp h with
  | field hp hvalue => exact .field hp (Doc.keeps_asString hd hvalue)
  | direction hp hvalue =>
      exact .direction hp (Doc.keeps_asOption (Doc.keeps_asVariant _ _ n) hd hvalue)
  | other hkey hskip => exact .other hkey (hd.skip hskip)

/-- The two members of a sort key may be added either way round. -/
theorem interchanges_add (n : Nat) : Interchanges (add n) := by
  intro p p' p'' key key' d d' h h'
  simp only [add_eq_ok] at h h' ⊢
  cases h <;> cases h' <;> try contradiction
  all_goals exact ⟨_, by constructor <;> assumption, by constructor <;> assumption⟩

end OrderSpecParts

theorem OrderSpec.keeps_ofDoc (n : Nat) : Keeps Doc.Reordered (OrderSpec.ofDoc n) := by
  intro d d' hd spec h
  obtain ⟨p, hp, hfinish⟩ := bind_eq_ok.mp h
  have hkeeps := Doc.keeps_addTo (OrderSpecParts.keeps_add (n + 1))
    (OrderSpecParts.interchanges_add (n + 1)) (· == "dir") ["field", "dir"] n {}
  exact bind_eq_ok.mpr ⟨p, hkeeps hd hp, hfinish⟩

/-! ## Queries -/

namespace QueryParts

theorem keeps_add (p : QueryParts) (key : String) : Keeps Doc.Reordered (p.add key) := by
  intro d d' hd p' h
  refine add_eq_ok.mpr ?_
  cases add_eq_ok.mp h with
  | operation hp hvalue => exact .operation hp (Doc.keeps_asVariant _ _ 1 hd hvalue)
  | source hp hvalue => exact .source hp (Doc.keeps_asOption Doc.keeps_asString hd hvalue)
  | selector hp hvalue => exact .selector hp (Selector.keeps_ofDoc 1 hd hvalue)
  | criteria hp hvalue => exact .criteria hp (Doc.keeps_asOption (Criteria.keeps_ofDoc 1) hd hvalue)
  | order hp hvalue => exact .order hp (Doc.keeps_asList (OrderSpec.keeps_ofDoc 2) 1 hd hvalue)
  | limit hp hvalue => exact .limit hp (Doc.keeps_asOption Doc.keeps_asUnsigned hd hvalue)
  | other hkey hskip => exact .other hkey (hd.skip hskip)

/-- Any two members of a query may be added either way round, as none looks at another. -/
theorem interchanges_add : Interchanges add := by
  intro p p' p'' key key' d d' h h'
  simp only [add_eq_ok] at h h' ⊢
  -- A part that has been filled is not empty, so no part is filled twice.
  cases h <;> cases h' <;> try contradiction
  all_goals exact ⟨_, by constructor <;> assumption, by constructor <;> assumption⟩

end QueryParts

/-- A query is read alike in any order of its members, and of those inside of them. -/
theorem Query.keeps_ofDoc : Keeps Doc.Reordered Query.ofDoc := by
  intro d d' hd q h
  obtain ⟨p, hp, hfinish⟩ := bind_eq_ok.mp h
  have hkeeps := Doc.keeps_addTo QueryParts.keeps_add QueryParts.interchanges_add
    QueryParts.isOptional QueryParts.names 0 {}
  exact bind_eq_ok.mpr ⟨p, hkeeps hd hp, hfinish⟩

/-- A text holds the query that another text holds if the two differ in the order of members only,
    in any of their objects, and so do two values that are written, in whatever layouts. -/
theorem json_member_order :
    (∀ (s t : String) (q : Query), Query.ofJsonText s = .ok q →
      (readText s).Reordered (readText t) → Query.ofJsonText t = .ok q) ∧
    ∀ (l l' : Layout) (j j' : Json) (q : Query), l.OfBlanks → l'.OfBlanks → j.Integral →
      Reordered j j' → Query.ofJsonText (j.write l 0) = .ok q →
        Query.ofJsonText (j'.write l' 0) = .ok q := by
  have htexts (s t : String) (q : Query) (h : Query.ofJsonText s = .ok q)
      (hst : (readText s).Reordered (readText t)) : Query.ofJsonText t = .ok q :=
    keeps_decodeText Query.keeps_ofDoc hst h
  refine ⟨htexts, fun l l' j j' q hl hl' hj hjj' h => htexts _ _ q h ?_⟩
  rw [readText_write hl 0 hj, readText_write hl' 0 (hjj'.integral hj)]
  exact ⟨hjj'.doc, rfl⟩

/-- Criteria inside of others, with the kind first everywhere. -/
def kindFirst : Json :=
  .object [
    ("op", .string "select"),
    ("selector", .object [("kind", .string "simple"), ("field", .string "a")]),
    ("criteria", .object [
      ("kind", .string "negated"),
      ("criteria", .object [
        ("kind", .string "index"), ("field", .string "b"), ("value", .string "c")])]),
    ("note", .object [("x", .null), ("y", .array [])])]

/-- The same value with the kind last or in between, and every other member somewhere else. -/
def kindElsewhere : Json :=
  .object [
    ("note", .object [("y", .array []), ("x", .null)]),
    ("criteria", .object [
      ("criteria", .object [
        ("field", .string "b"), ("kind", .string "index"), ("value", .string "c")]),
      ("kind", .string "negated")]),
    ("selector", .object [("field", .string "a"), ("kind", .string "simple")]),
    ("op", .string "select")]

/-- The query of both. -/
def kindQuery : Query where
  operation := .select
  selector := .simple "a"
  criteria := some (.negated (.index "b" "c"))

theorem reordered_kindFirst : Reordered kindFirst kindElsewhere := by
  have hselector := ReorderedMembers.swap ("kind", .string "simple") ("field", .string "a") []
  have hindex := ReorderedMembers.swap ("kind", .string "index") ("field", .string "b")
    [("value", .string "c")]
  have hnegated := ReorderedMembers.trans
    (.cons "kind" (.refl (.string "negated")) (.cons "criteria" (.object hindex) (.refl [])))
    (.swap _ _ [])
  have hnote := ReorderedMembers.swap ("x", .null) ("y", .array []) []
  have hinside := ReorderedMembers.cons "op" (.refl (.string "select"))
    (.cons "selector" (.object hselector) (.cons "criteria" (.object hnegated)
      (.cons "note" (.object hnote) (.refl []))))
  exact .object (hinside.trans (.of_perm (List.reverse_perm _).symm))

/-- Both values hold the query, one of them without blanks and one with line breaks. -/
theorem json_member_order_of_kindFirst :
    Query.ofJsonText kindFirst.compact = .ok kindQuery ∧
      (readText kindFirst.compact).Reordered (readText kindElsewhere.indented) ∧
      Query.ofJsonText kindElsewhere.indented = .ok kindQuery ∧
      Query.ofJsonText kindElsewhere.compact = .ok kindQuery := by
  have hobject (ms : List (String × Json)) :
      (Json.object ms).Integral ↔ ∀ m ∈ ms, m.2.Integral :=
    ⟨fun | .object h => h, .object⟩
  have hintegral : kindFirst.Integral := by
    have harray : (Json.array []).Integral := .array (by simp)
    simp [kindFirst, hobject, harray, Integral.string, Integral.null]
  have hfirst : Query.ofJsonText kindFirst.compact = .ok kindQuery := by
    rw [Query.ofJsonText, readText_compact hintegral]
    exact eq_ok_of_toOption (by decide +kernel)
  have hreordered : (readText kindFirst.compact).Reordered (readText kindElsewhere.indented) := by
    rw [readText_compact hintegral, readText_indented (reordered_kindFirst.integral hintegral)]
    exact ⟨reordered_kindFirst.doc, rfl⟩
  obtain ⟨htexts, hwritten⟩ := json_member_order
  exact ⟨hfirst, hreordered, htexts _ _ _ hfirst hreordered,
    hwritten _ _ _ _ _ ofBlanks_compact ofBlanks_compact hintegral reordered_kindFirst hfirst⟩

end RecordQuery
