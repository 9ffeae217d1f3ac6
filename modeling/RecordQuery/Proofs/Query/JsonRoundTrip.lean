/-
  RecordQuery.Proofs.Query.JsonRoundTrip

  Which queries survive their JSON text. The criteria of a query stand inside of its own object, so
  126 of the 127 arrays and objects that may be open are left for them. A query within this bound
  comes back from both of its texts. Decoding keeps to the same bound, whatever the text looks like,
  so a query that was decoded once can be written and decoded again; the compiler does not, and some
  of its queries do not come back.
-/

import RecordQuery.Proofs.Query.JsonForm
import RecordQuery.Proofs.Query.Parts
import RecordQuery.Proofs.Query.Recompiling

namespace RecordQuery

open Json

/-! ## Criteria that are decoded -/

/-- Criteria that have been read as fields are no higher than `n`. -/
def CriteriaParts.Within (n : Nat) : CriteriaParts → Prop
  | .value _ _ _ | .range _ _ _ | .index _ _ => True
  | .compound _ left right => (∀ c, left = some c → c.height ≤ n) ∧ ∀ c, right = some c → c.height ≤ n
  | .negated criteria => ∀ c, criteria = some c → c.height ≤ n

namespace CriteriaParts

variable {n : Nat}

theorem within_of_mem_all {p : CriteriaParts} (h : p ∈ all) : p.Within n := by
  simp only [all, List.mem_cons, List.not_mem_nil, or_false] at h
  rcases h with rfl | rfl | rfl | rfl | rfl <;> simp [Within]

/-- A part that is added has no more height than the criteria inside of it. -/
theorem Within.add {p p' : CriteriaParts} {key : String} {j : Json} {nested : Decoded Criteria}
    (hp : p.Within n) (hnested : ∀ c, nested = .ok c → c.height ≤ n)
    (h : p.add key j nested = .ok p') : p'.Within n := by
  cases add_eq_ok.mp h with
  | compoundLeft hleft =>
      refine ⟨?_, hp.2⟩
      rintro _ ⟨⟩
      exact hnested _ hleft
  | compoundRight hright =>
      refine ⟨hp.1, ?_⟩
      rintro _ ⟨⟩
      exact hnested _ hright
  | negated hc =>
      rintro _ ⟨⟩
      exact hnested _ hc
  -- No other field holds criteria.
  | _ => exact hp

/-- Criteria are one node higher than what is inside of them. -/
theorem Within.height_of_finish {p : CriteriaParts} {c : Criteria} (hp : p.Within n)
    (h : p.finish = .ok c) : c.height ≤ n + 1 := by
  cases p with
  | value field op text =>
      obtain ⟨_, -, h⟩ := bind_eq_ok.mp h
      obtain ⟨_, -, h⟩ := bind_eq_ok.mp h
      obtain ⟨_, -, h⟩ := bind_eq_ok.mp h
      cases h
      exact Nat.le_add_left 1 n
  | range field op bound =>
      obtain ⟨_, -, h⟩ := bind_eq_ok.mp h
      obtain ⟨_, -, h⟩ := bind_eq_ok.mp h
      obtain ⟨_, -, h⟩ := bind_eq_ok.mp h
      cases h
      exact Nat.le_add_left 1 n
  | index field text =>
      obtain ⟨_, -, h⟩ := bind_eq_ok.mp h
      obtain ⟨_, -, h⟩ := bind_eq_ok.mp h
      cases h
      exact Nat.le_add_left 1 n
  | compound op left right =>
      obtain ⟨_, -, h⟩ := bind_eq_ok.mp h
      obtain ⟨l, hl, h⟩ := bind_eq_ok.mp h
      obtain ⟨r, hr, h⟩ := bind_eq_ok.mp h
      cases h
      have hleft : l.height ≤ n := hp.1 l (eq_some_of_required hl)
      have hright : r.height ≤ n := hp.2 r (eq_some_of_required hr)
      rw [Criteria.height]
      omega
  | negated criteria =>
      obtain ⟨c, hc, h⟩ := bind_eq_ok.mp h
      cases h
      exact Nat.succ_le_succ (hp c (eq_some_of_required hc))

end CriteriaParts

namespace Criteria

mutual

/-- Criteria that are part of others are no higher than their JSON is deep. -/
theorem height_of_ofJson : ∀ (j : Json) {c : Criteria}, ofJson j = .ok c → c.height ≤ j.depth
  | .object members, c, h => by
    rw [ofJson] at h
    obtain ⟨p, hp, h⟩ := bind_eq_ok.mp h
    have hmem : p ∈ CriteriaParts.all := mem_of_tagAmong hp (by simp)
    exact height_of_ofMembers members (Nat.le_refl _) (CriteriaParts.within_of_mem_all hmem) h
  | .array [], c, h => by cases h
  | .array (first :: items), c, h => by
    rw [ofJson] at h
    obtain ⟨p, hp, h⟩ := bind_eq_ok.mp h
    have hdepth : depthItems items ≤ depthItems (first :: items) := Nat.le_max_right _ _
    exact height_of_ofItems p.names items hdepth
      (CriteriaParts.within_of_mem_all (mem_of_tag hp)) h
  | .null, c, h => by cases h
  | .bool b, c, h => by cases h
  | .number n, c, h => by cases h
  | .string s, c, h => by cases h

/-- Criteria of members are no higher than these are deep. -/
theorem height_of_ofMembers {n : Nat} : ∀ (members : List (String × Json)) {p : CriteriaParts}
    {c : Criteria}, depthMembers members ≤ n → p.Within n → ofMembers p members = .ok c →
      c.height ≤ n + 1
  | [], p, c, _, hp, h => hp.height_of_finish h
  | (key, j) :: members, p, c, hn, hp, h => by
    rw [ofMembers] at h
    obtain ⟨p', hp', h⟩ := bind_eq_ok.mp h
    rw [depthMembers] at hn
    have hnested : ∀ c, ofJson j = .ok c → c.height ≤ n := by
      intro c hc
      have := height_of_ofJson j hc
      omega
    exact height_of_ofMembers members (by omega) (hp.add hnested hp') h

/-- Criteria of items are no higher than these are deep. -/
theorem height_of_ofItems {n : Nat} : ∀ (names : List String) (items : List Json)
    {p : CriteriaParts} {c : Criteria}, depthItems items ≤ n → p.Within n →
      ofItems p names items = .ok c → c.height ≤ n + 1
  | [], [], p, c, _, hp, h => hp.height_of_finish h
  | name :: names, j :: items, p, c, hn, hp, h => by
    rw [ofItems] at h
    obtain ⟨p', hp', h⟩ := bind_eq_ok.mp h
    rw [depthItems] at hn
    have hnested : ∀ c, ofJson j = .ok c → c.height ≤ n := by
      intro c hc
      have := height_of_ofJson j hc
      omega
    exact height_of_ofItems names items (by omega) (hp.add hnested hp') h
  | [], _ :: _, p, c, _, _, h => by cases h
  | _ :: _, [], p, c, _, _, h => by cases h

end

/-- Criteria that are decoded had room for all of their nodes. -/
theorem height_of_ofDoc {depth : Nat} {d : Doc} {c : Criteria} (h : ofDoc depth d = .ok c) :
    depth + c.height ≤ maxDepth := by
  obtain ⟨⟨p, fields⟩, htagged, h⟩ := bind_eq_ok.mp h
  obtain ⟨hmem, hroom⟩ := tagged_spec htagged
  have hp := fun n => CriteriaParts.within_of_mem_all (n := n) hmem
  cases fields with
  | named members =>
      have := height_of_ofMembers members (Nat.le_refl _) (hp _) h
      rw [Fields.depth] at hroom
      omega
  | positional items =>
      have := height_of_ofItems p.names items (Nat.le_refl _) (hp _) h
      rw [Fields.depth] at hroom
      omega

end Criteria

/-! ## Queries that are decoded -/

theorem asOption_eq_some {α : Type} {decode : Doc → Decoded α} {d : Doc} {a : α}
    (h : d.asOption decode = .ok (some a)) : decode d = .ok a := by
  unfold Doc.asOption at h
  split at h
  next => cases h
  next => cases h
  next =>
    obtain ⟨b, hb, h⟩ := map_eq_ok.mp h
    cases h
    exact hb

/-- Criteria that have been read for a query are no higher than 126. -/
def QueryParts.Within (p : QueryParts) : Prop :=
  ∀ c, p.criteria = some (some c) → c.height ≤ 126

theorem QueryParts.Within.add {p p' : QueryParts} {key : String} {d : Doc} (hp : p.Within)
    (h : p.add key d = .ok p') : p'.Within := by
  cases QueryParts.add_eq_ok.mp h with
  | criteria _ hcriteria =>
      rintro c ⟨⟩
      have hroom := Criteria.height_of_ofDoc (asOption_eq_some hcriteria)
      simp only [maxDepth] at hroom
      omega
  -- The criteria stay as they are if another part is added.
  | _ => exact hp

namespace Query

/-- A document has room for no query with a longer path. -/
theorem height_of_ofDoc {d : Doc} {q : Query} (h : ofDoc d = .ok q) : q.height ≤ 126 := by
  obtain ⟨p, hp, h⟩ := bind_eq_ok.mp h
  have hwithin : p.Within := addTo_keeps QueryParts.Within.add (by rintro c ⟨⟩) hp
  obtain ⟨operation, -, h⟩ := bind_eq_ok.mp h
  obtain ⟨selector, -, h⟩ := bind_eq_ok.mp h
  cases h
  unfold height
  split
  next c hc =>
    apply hwithin c
    cases hcriteria : p.criteria with
    | none =>
        rw [hcriteria] at hc
        cases hc
    | some criteria =>
        rw [hcriteria] at hc
        exact congrArg some hc
  next => exact Nat.zero_le 126

/-- No JSON text holds a query whose criteria have more than 126 nodes on a path. -/
theorem height_of_ofJsonText {text : String} {q : Query} (h : ofJsonText text = .ok q) :
    q.height ≤ 126 := by
  obtain ⟨q', hq, h⟩ := bind_eq_ok.mp h
  split at h
  next => cases h
  next =>
    cases h
    exact height_of_ofDoc hq

/-! ## Queries that are written -/

/-- A query whose document is read is decoded, or too high. -/
theorem ofJsonText_of_readText {text : String} {q : Query}
    (h : readText text = ⟨q.toJson.doc, false⟩) :
    ofJsonText text = if q.height ≤ 126 then .ok q else .error (.malformed .misplaced) := by
  rw [ofJsonText, h, decodeText, ofDoc_doc]
  rcases Nat.lt_or_ge 126 q.height with hdeep | hroom
  · rw [if_neg (Nat.not_le.mpr hdeep)]
    rfl
  · rw [if_pos hroom]
    rfl

theorem ofJsonText_toJsonText (q : Query) :
    ofJsonText q.toJsonText = if q.height ≤ 126 then .ok q else .error (.malformed .misplaced) :=
  ofJsonText_of_readText (readText_compact q.integral_toJson)

theorem ofJsonText_toIndentedJsonText (q : Query) :
    ofJsonText q.toIndentedJsonText =
      if q.height ≤ 126 then .ok q else .error (.malformed .misplaced) :=
  ofJsonText_of_readText (readText_indented q.integral_toJson)

end Query

/-! ## Round trips -/

/-- A query whose criteria have at most 126 nodes on a path is decoded from both of its texts, and
    so is every query that was decoded from any text. -/
theorem json_round_trip :
    (∀ q : Query, q.height ≤ 126 →
      Query.ofJsonText q.toJsonText = .ok q ∧ Query.ofJsonText q.toIndentedJsonText = .ok q) ∧
    ∀ (text : String) (q : Query), Query.ofJsonText text = .ok q →
      q.height ≤ 126 ∧ Query.ofJsonText q.toJsonText = .ok q ∧
        Query.ofJsonText q.toIndentedJsonText = .ok q := by
  have hwritten : ∀ q : Query, q.height ≤ 126 →
      Query.ofJsonText q.toJsonText = .ok q ∧ Query.ofJsonText q.toIndentedJsonText = .ok q := by
    intro q hq
    rw [q.ofJsonText_toJsonText, q.ofJsonText_toIndentedJsonText, if_pos hq]
    exact ⟨rfl, rfl⟩
  refine ⟨hwritten, ?_⟩
  intro text q h
  have hq := Query.height_of_ofJsonText h
  exact ⟨hq, hwritten q hq⟩

/-- A text as no query is written: the parts stand in an array, one that is absent is `null`, and
    the members of the criteria stand in another order, with one that no criteria have. -/
def oddJsonText : String :=
  "[\"select\",null,[\"simple\",\"a\"],[\"negated\"," ++
    "\x7b\"value\":-1,\"x\":[],\"op\":\"less_than\",\"kind\":\"range\",\"field\":\"a\"\x7d]]"

/-- The query that the text holds. -/
def oddQuery : Query where
  operation := .select
  selector := .simple "a"
  criteria := some (.negated (.range "a" .lessThan (-1)))

/-- A query with quotes, control characters and the integers at the ends of their ranges comes back,
    and so does the query of the odd text. -/
theorem json_round_trip_extreme_odd :
    (extremeQuery.height ≤ 126 ∧
      Query.ofJsonText extremeQuery.toJsonText = .ok extremeQuery ∧
      Query.ofJsonText extremeQuery.toIndentedJsonText = .ok extremeQuery) ∧
    Query.ofJsonText oddJsonText = .ok oddQuery ∧
      Query.ofJsonText oddQuery.toJsonText = .ok oddQuery ∧
      Query.ofJsonText oddQuery.toIndentedJsonText = .ok oddQuery := by
  have hextreme : extremeQuery.height ≤ 126 := by decide
  have hodd : Query.ofJsonText oddJsonText = .ok oddQuery :=
    eq_ok_of_toOption (by decide +kernel)
  obtain ⟨hwritten, hdecoded⟩ := json_round_trip
  exact ⟨⟨hextreme, hwritten _ hextreme⟩, hodd, (hdecoded _ _ hodd).2⟩

/-! ## Compiled queries -/

/-- Each comparison of a chain is one node deeper than the next. -/
theorem height_chainCriteria (n : Nat) : (chainCriteria n).height = n + 1 := by
  induction n with
  | zero => rfl
  | succ n ih =>
      rw [chainCriteria, Criteria.height, ih]
      exact congrArg (· + 1) (Nat.max_eq_left (Nat.le_add_left 1 n))

/-- A compiled query comes back from its JSON texts exactly if its criteria have at most 126 nodes
    on a path; otherwise both texts are refused where they nest too deep. -/
theorem compiled_json_by_height (text : String) :
    ∀ q : Query, compile text = .ok q →
      (Query.ofJsonText q.toJsonText = .ok q ↔ q.height ≤ 126) ∧
        (Query.ofJsonText q.toIndentedJsonText = .ok q ↔ q.height ≤ 126) ∧
        (126 < q.height →
          Query.ofJsonText q.toJsonText = .error (.malformed .misplaced) ∧
            Query.ofJsonText q.toIndentedJsonText = .error (.malformed .misplaced)) := by
  -- Decoding only looks at the height, not at where the query comes from.
  intro q _
  rw [q.ofJsonText_toJsonText, q.ofJsonText_toIndentedJsonText]
  rcases Nat.lt_or_ge 126 q.height with hdeep | hroom
  · have hn : ¬ q.height ≤ 126 := Nat.not_le.mpr hdeep
    rw [if_neg hn]
    refine ⟨⟨?_, fun h => absurd h hn⟩, ⟨?_, fun h => absurd h hn⟩, fun _ => ⟨rfl, rfl⟩⟩
    · rintro ⟨⟩
    · rintro ⟨⟩
  · rw [if_pos hroom]
    exact ⟨⟨fun _ => hroom, fun _ => rfl⟩, ⟨fun _ => hroom, fun _ => rfl⟩,
      fun h => absurd hroom (Nat.not_le.mpr h)⟩

/-- A chain of 126 comparisons comes back. -/
theorem compiled_json_longest_chain :
    compile (chainText 125) = .ok (chainQuery 125) ∧
      Query.ofJsonText (chainQuery 125).toJsonText = .ok (chainQuery 125) ∧
      Query.ofJsonText (chainQuery 125).toIndentedJsonText = .ok (chainQuery 125) := by
  have hcompile := compile_chainText 125
  have hheight : (chainQuery 125).height ≤ 126 := Nat.le_of_eq (height_chainCriteria 125)
  obtain ⟨hcompact, hindented, -⟩ := compiled_json_by_height _ _ hcompile
  exact ⟨hcompile, hcompact.mpr hheight, hindented.mpr hheight⟩

/-- A chain of 127 comparisons compiles, and comes back from neither of its JSON texts. -/
theorem chain_lost_in_json :
    compile (chainText 126) = .ok (chainQuery 126) ∧
      Query.ofJsonText (chainQuery 126).toJsonText ≠ .ok (chainQuery 126) ∧
      Query.ofJsonText (chainQuery 126).toIndentedJsonText ≠ .ok (chainQuery 126) := by
  have hheight : ¬ (chainQuery 126).height ≤ 126 := by
    show ¬ (chainCriteria 126).height ≤ 126
    rw [height_chainCriteria]
    decide
  refine ⟨compile_chainText 126, ?_, ?_⟩
  · rw [Query.ofJsonText_toJsonText, if_neg hheight]
    rintro ⟨⟩
  · rw [Query.ofJsonText_toIndentedJsonText, if_neg hheight]
    rintro ⟨⟩

end RecordQuery
