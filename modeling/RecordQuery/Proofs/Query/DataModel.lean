/-
  RecordQuery.Proofs.Query.DataModel

  What the types of a query leave open: a compound selector could have no fields, and a query that
  deletes could have any selector. Compiling produces neither. Decoding checks neither: a query has
  the selector and the operation that its JSON text writes, so a text keeps the data model or breaks
  it by what it writes in these two fields.
-/

import RecordQuery.Proofs.Json.Field
import RecordQuery.Proofs.Query.Parts
import RecordQuery.Proofs.Query.WellFormed

namespace RecordQuery

open Json

/-- A compound selector has a field, and a query that deletes has the identity selector. -/
structure Query.KeepsDataModel (q : Query) : Prop where
  compound : q.selector ≠ .compound []
  delete : q.operation = .delete → q.selector = .identity

instance (q : Query) : Decidable q.KeepsDataModel :=
  decidable_of_iff (q.selector ≠ .compound [] ∧ (q.operation = .delete → q.selector = .identity))
    ⟨fun ⟨hc, hd⟩ => ⟨hc, hd⟩, fun ⟨hc, hd⟩ => ⟨hc, hd⟩⟩

/-- A query that a vocabulary allows keeps the data model. -/
theorem Query.WellFormed.keepsDataModel {v : Vocabulary} {q : Query} (h : q.WellFormed v) :
    q.KeepsDataModel where
  compound hnil := by
    cases hop : q.operation with
    | select =>
        have hselector := h.select hop
        rw [hnil] at hselector
        exact absurd hselector.2 (by decide)
    | delete => cases hnil.symm.trans (h.delete hop).1
  delete hop := (h.delete hop).1

/-- What compiles keeps the data model. -/
theorem keepsDataModel_of_compileWith {v : Vocabulary} {text : String} {q : Query}
    (h : compileWith v text = .ok q) : q.KeepsDataModel :=
  (wellFormed_of_compileWith h).keepsDataModel

/-! ## What a document writes -/

namespace Json

/-- The document is a tagged record of a kind, with a value as one of its fields. -/
def Doc.Holds (d : Doc) (kind key : String) (value : Doc) : Prop :=
  d.tag? = some (.string (.ok kind)) ∧ d.field? [tagName, key] key = some value

/-- The document names an alternative: by a string, or as the only key of an object. -/
def Doc.Names (d : Doc) (name : String) : Prop :=
  d = .string (.ok name) ∨ d = .object (.member (.ok name) .null .close)

/-- Only a string is decoded as a string. -/
theorem Doc.eq_string_of_asString {d : Doc} {s : String} (h : d.asString = .ok s) :
    d = .string (.ok s) := by
  cases d with
  | string t =>
      cases t with
      | ok t =>
          cases h
          rfl
      | error stop => cases h
  | null => cases h
  | bool => cases h
  | number n => cases n <;> cases h
  | array => cases h
  | object => cases h
  | broken => cases h

theorem Doc.eq_string_of_toJson {d : Doc} {n : Nat} {s : String}
    (h : d.toJson n = .ok (.string s)) : d = .string (.ok s) := by
  cases d with
  | string t =>
      cases t with
      | ok t =>
          cases h
          rfl
      | error stop => cases h
  | null => cases h
  | bool => cases h
  | number n => cases n <;> cases h
  | array items =>
      obtain ⟨_, -, h⟩ := bind_eq_ok.mp h
      obtain ⟨_, -, h⟩ := bind_eq_ok.mp h
      cases h
  | object members =>
      obtain ⟨_, -, h⟩ := bind_eq_ok.mp h
      obtain ⟨_, -, h⟩ := bind_eq_ok.mp h
      cases h
  | broken => cases h

/-- Only an array without items has no items. -/
theorem Doc.eq_close_of_toJson {d : Doc} {n : Nat} (h : d.toJson n = .ok (.array [])) :
    d = .array .close := by
  cases d with
  | array items =>
      obtain ⟨_, -, h⟩ := bind_eq_ok.mp h
      obtain ⟨js, hjs, h⟩ := bind_eq_ok.mp h
      obtain rfl : js = [] := by simpa [pure_eq_ok] using h
      cases items with
      | close => rfl
      | item value rest =>
          obtain ⟨_, _, -, -, h⟩ := toJsons_item_eq_ok.mp hjs
          cases h
      | cut => cases hjs
      | stray => cases hjs
      | danglingComma => cases hjs
  | null => cases h
  | bool => cases h
  | number n => cases n <;> cases h
  | string s => cases s <;> cases h
  | object members =>
      obtain ⟨_, -, h⟩ := bind_eq_ok.mp h
      obtain ⟨_, -, h⟩ := bind_eq_ok.mp h
      cases h
  | broken => cases h

theorem eq_string_of_asString {j : Json} {s : String} (h : j.asString = .ok s) : j = .string s := by
  cases j with
  | string t =>
      cases h
      rfl
  | _ => cases h

/-- A list of strings is empty exactly if its array is. -/
theorem asStrings_eq_nil_iff {j : Json} {ss : List String} (h : j.asStrings = .ok ss) :
    ss = [] ↔ j = .array [] := by
  cases j with
  | array items =>
      cases items with
      | nil =>
          obtain rfl : ss = [] := (Except.ok.inj h).symm
          exact iff_of_true rfl rfl
      | cons item items =>
          rw [asStrings, List.mapM_cons] at h
          obtain ⟨s, -, h⟩ := bind_eq_ok.mp h
          obtain ⟨more, -, h⟩ := bind_eq_ok.mp h
          cases h
          simp
  | _ => cases h

theorem name_of_variant {α : Type} {all : List α} {name : α → String} {s : String} {a : α}
    (h : variant all name s = .ok a) : name a = s := by
  unfold variant at h
  split at h
  next b hb =>
    cases h
    have hbeq : (name a == s) = true := List.find?_some (p := fun a => name a == s) hb
    exact beq_iff_eq.mp hbeq
  next => cases h

theorem Doc.eq_string_of_asTag {α : Type} {all : List α} {name : α → String} {d : Doc} {a : α}
    (h : d.asTag all name = .ok a) : d = .string (.ok (name a)) := by
  obtain ⟨s, hs, ha⟩ := bind_eq_ok.mp h
  rw [name_of_variant ha]
  exact eq_string_of_asString hs

/-- The alternative that is decoded is the one that the document names. -/
theorem Doc.names_iff_of_asVariant {α : Type} {all : List α} {name : α → String} {n : Nat} {d : Doc}
    {a : α} (h : d.asVariant all name n = .ok a) (s : String) : d.Names s ↔ name a = s := by
  cases d with
  | string t =>
      obtain ⟨u, hu, ha⟩ := bind_eq_ok.mp h
      obtain rfl := mapError_eq_ok.mp hu
      rw [name_of_variant ha]
      simp [Names]
  | object members =>
      obtain ⟨_, -, h⟩ := bind_eq_ok.mp h
      obtain ⟨key, rfl, ha⟩ := asVariantMember_eq_ok.mp h
      rw [name_of_variant ha]
      simp [Names]
  | null => cases h
  | bool => cases h
  | number => cases h
  | array => cases h
  | broken => cases h

end Json

/-! ## Selectors -/

namespace SelectorParts

/-- The field of a single one. -/
def single? : SelectorParts → Option String
  | .simple field => field
  | _ => none

/-- The fields of several. -/
def several? : SelectorParts → Option (List String)
  | .compound fields => fields
  | _ => none

theorem fills_simple :
    Fills (fun p => ∃ field, p = .simple field) add "field" single? Json.asString where
  keeps := by
    rintro _ _ _ _ ⟨field, rfl⟩ h
    cases add_eq_ok.mp h with
    | simpleField hj => exact ⟨_, rfl⟩
    | other hkey => exact ⟨field, rfl⟩
  fill := by
    rintro _ _ _ ⟨field, rfl⟩ h
    cases add_eq_ok.mp h with
    | simpleField hj => exact ⟨rfl, _, hj, rfl⟩
    | other hkey => exact absurd List.mem_cons_self hkey
  other := by
    rintro _ _ _ _ ⟨field, rfl⟩ hk h
    cases add_eq_ok.mp h with
    | simpleField hj => exact absurd rfl hk
    | other hkey => rfl

theorem fills_compound :
    Fills (fun p => ∃ fields, p = .compound fields) add "fields" several? Json.asStrings where
  keeps := by
    rintro _ _ _ _ ⟨fields, rfl⟩ h
    cases add_eq_ok.mp h with
    | compoundFields hj => exact ⟨_, rfl⟩
    | other hkey => exact ⟨fields, rfl⟩
  fill := by
    rintro _ _ _ ⟨fields, rfl⟩ h
    cases add_eq_ok.mp h with
    | compoundFields hj => exact ⟨rfl, _, hj, rfl⟩
    | other hkey => exact absurd List.mem_cons_self hkey
  other := by
    rintro _ _ _ _ ⟨fields, rfl⟩ hk h
    cases add_eq_ok.mp h with
    | compoundFields hj => exact absurd rfl hk
    | other hkey => rfl

/-- A function stays one whatever is added to it. -/
theorem function_add {p p' : SelectorParts} {key : String} {j : Json}
    (hp : ∃ name field, p = .function name field) (h : p.add key j = .ok p') :
    ∃ name field, p' = .function name field := by
  obtain ⟨name, field, rfl⟩ := hp
  cases add_eq_ok.mp h with
  | functionName hj => exact ⟨_, _, rfl⟩
  | functionField hj => exact ⟨_, _, rfl⟩
  | other hkey => exact ⟨name, field, rfl⟩

/-- Fields in order are added like members with their names. -/
theorem foldlM_of_addItems {names : List String} {js : List Json} {p p' : SelectorParts}
    (h : p.addItems names js = .ok p') :
    (names.zip js).foldlM (fun p (key, j) => p.add key j) p = .ok p' := by
  induction names generalizing js p with
  | nil =>
      cases js with
      | nil => exact h
      | cons j js => cases h
  | cons name names ih =>
      cases js with
      | nil => cases h
      | cons j js =>
          obtain ⟨q, hq, hrest⟩ := bind_eq_ok.mp h
          exact bind_eq_ok.mpr ⟨q, hq, ih hrest⟩

end SelectorParts

namespace Selector

open SelectorParts

variable {n : Nat} {d : Doc} {selector : Selector}

/-- A selector is made of the members of its document, whose kind is the tag. -/
theorem parts_of_ofDoc (h : ofDoc n d = .ok selector) :
    ∃ (p p' : SelectorParts) (ms : List (String × Json)), p ∈ SelectorParts.all ∧
      d.tag? = some (.string (.ok p.kind)) ∧
      (∀ {key : String} {j : Json}, key ≠ tagName → ms.lookup key = some j →
        ∃ f, d.field? (tagName :: p.names) key = some f ∧ f.toJson (n + 1) = .ok j) ∧
      ms.foldlM (fun p (key, j) => p.add key j) p = .ok p' ∧ p'.finish = .ok selector := by
  obtain ⟨⟨p, fields⟩, htagged, h⟩ := bind_eq_ok.mp h
  obtain ⟨⟨t, ht, hkind⟩, hfields⟩ := field?_of_tagged htagged
  rw [Doc.eq_string_of_asTag hkind] at ht
  have hall := (tagged_spec htagged).1
  cases fields with
  | named ms =>
      obtain ⟨p', hp', hfinish⟩ := bind_eq_ok.mp h
      exact ⟨p, p', ms, hall, ht, hfields p.names, hp', hfinish⟩
  | positional items =>
      obtain ⟨p', hp', hfinish⟩ := bind_eq_ok.mp h
      exact ⟨p, p', p.names.zip items, hall, ht, hfields p.names, foldlM_of_addItems hp', hfinish⟩

/-- What the document of a selector says about it, kind by kind. -/
theorem ofDoc_cases (h : ofDoc n d = .ok selector) :
    (∃ s, selector = .simple s ∧ d.Holds "simple" "field" (.string (.ok s))) ∨
      (∃ ss f j, selector = .compound ss ∧ d.Holds "compound" "fields" f ∧
        f.toJson (n + 1) = .ok j ∧ j.asStrings = .ok ss) ∨
      ∃ name s, selector = .function name s ∧ d.tag? = some (.string (.ok "function")) := by
  obtain ⟨p, p', ms, hall, htag, hfields, hadd, hfinish⟩ := parts_of_ofDoc h
  simp only [SelectorParts.all, List.mem_cons, List.not_mem_nil, or_false] at hall
  obtain rfl | rfl | rfl := hall
  · left
    obtain ⟨field, rfl⟩ := foldlM_keeps add fills_simple.keeps ⟨none, rfl⟩ hadd
    obtain ⟨s, hs, hfinish⟩ := bind_eq_ok.mp hfinish
    obtain ⟨j, hj, hs'⟩ :=
      lookup_of_foldlM fills_simple ⟨none, rfl⟩ rfl hadd (eq_some_of_required hs)
    obtain ⟨f, hf, hfj⟩ := hfields (by decide) hj
    rw [eq_string_of_asString hs'] at hfj
    rw [Doc.eq_string_of_toJson hfj] at hf
    exact ⟨s, (pure_eq_ok.mp hfinish).symm, htag, hf⟩
  · right; left
    obtain ⟨fields, rfl⟩ := foldlM_keeps add fills_compound.keeps ⟨none, rfl⟩ hadd
    obtain ⟨ss, hss, hfinish⟩ := bind_eq_ok.mp hfinish
    obtain ⟨j, hj, hss'⟩ :=
      lookup_of_foldlM fills_compound ⟨none, rfl⟩ rfl hadd (eq_some_of_required hss)
    obtain ⟨f, hf, hfj⟩ := hfields (by decide) hj
    exact ⟨ss, f, j, (pure_eq_ok.mp hfinish).symm, ⟨htag, hf⟩, hfj, hss'⟩
  · right; right
    obtain ⟨name, field, rfl⟩ := foldlM_keeps add function_add ⟨none, none, rfl⟩ hadd
    obtain ⟨s, -, hfinish⟩ := bind_eq_ok.mp hfinish
    obtain ⟨t, -, hfinish⟩ := bind_eq_ok.mp hfinish
    exact ⟨s, t, (pure_eq_ok.mp hfinish).symm, htag⟩

theorem kind_unique {kind kind' : String} (h : d.tag? = some (.string (.ok kind)))
    (h' : d.tag? = some (.string (.ok kind'))) : kind = kind' := by
  simpa using h.symm.trans h'

/-- A selector is a single field exactly if its document says so. -/
theorem eq_simple_iff (h : ofDoc n d = .ok selector) (s : String) :
    selector = .simple s ↔ d.Holds "simple" "field" (.string (.ok s)) := by
  obtain ⟨t, rfl, htag, hfield⟩ | ⟨ss, f, j, rfl, ⟨htag, -⟩, -, -⟩ | ⟨name, t, rfl, htag⟩ :=
    ofDoc_cases h
  · constructor
    · rintro ⟨⟩
      exact ⟨htag, hfield⟩
    · rintro ⟨-, hs⟩
      simpa using hfield.symm.trans hs
  · refine iff_of_false (by simp) fun hs => ?_
    exact absurd (kind_unique htag hs.1) (by decide)
  · refine iff_of_false (by simp) fun hs => ?_
    exact absurd (kind_unique htag hs.1) (by decide)

/-- A selector has no fields exactly if its document lists none. -/
theorem eq_compound_nil_iff (h : ofDoc n d = .ok selector) :
    selector = .compound [] ↔ d.Holds "compound" "fields" (.array .close) := by
  obtain ⟨t, rfl, htag, -⟩ | ⟨ss, f, j, rfl, ⟨htag, hf⟩, hj, hss⟩ | ⟨name, t, rfl, htag⟩ :=
    ofDoc_cases h
  · refine iff_of_false (by simp) fun hs => ?_
    exact absurd (kind_unique htag hs.1) (by decide)
  · rw [compound.injEq, asStrings_eq_nil_iff hss]
    constructor
    · rintro rfl
      rw [Doc.eq_close_of_toJson hj] at hf
      exact ⟨htag, hf⟩
    · rintro ⟨-, hs⟩
      obtain rfl := Option.some.inj (hf.symm.trans hs)
      obtain ⟨_, -, hj⟩ := bind_eq_ok.mp hj
      exact (pure_eq_ok.mp hj).symm
  · refine iff_of_false (by simp) fun hs => ?_
    exact absurd (kind_unique htag hs.1) (by decide)

end Selector

/-! ## Queries -/

namespace Json

/-- The document of a query writes a selector of a kind, with a value as one of its fields. -/
def Doc.WritesSelector (d : Doc) (kind key : String) (value : Doc) : Prop :=
  ∃ s, d.field? QueryParts.names "selector" = some s ∧ s.Holds kind key value

/-- The document of a query writes the name of an operation. -/
def Doc.WritesOperation (d : Doc) (name : String) : Prop :=
  ∃ o, d.field? QueryParts.names "op" = some o ∧ o.Names name

end Json

namespace QueryParts

theorem fills_operation : Fills (fun _ => True) add "op" QueryParts.operation
    (Doc.asVariant Operation.all Operation.name 1) where
  keeps _ _ := trivial
  fill _ h := by
    obtain ⟨hp, _, hd, rfl⟩ := fill_eq_ok.mp h
    exact ⟨hp, _, hd, rfl⟩
  other _ hk h := by
    cases add_eq_ok.mp h with
    | operation => exact absurd rfl hk
    | _ => rfl

theorem fills_selector : Fills (fun _ => True) add "selector" QueryParts.selector
    (Selector.ofDoc 1) where
  keeps _ _ := trivial
  fill _ h := by
    obtain ⟨hp, _, hd, rfl⟩ := fill_eq_ok.mp h
    exact ⟨hp, _, hd, rfl⟩
  other _ hk h := by
    cases add_eq_ok.mp h with
    | selector => exact absurd rfl hk
    | _ => rfl

end QueryParts

/-- A decoded query has the operation and the selector of the fields that write them. -/
theorem Query.fields_of_ofDoc {d : Doc} {q : Query} (h : ofDoc d = .ok q) :
    (∃ o, d.field? QueryParts.names "op" = some o ∧
      o.asVariant Operation.all Operation.name 1 = .ok q.operation) ∧
    ∃ s, d.field? QueryParts.names "selector" = some s ∧ Selector.ofDoc 1 s = .ok q.selector := by
  obtain ⟨p, hp, hfinish⟩ := bind_eq_ok.mp h
  obtain ⟨op, hop, hfinish⟩ := bind_eq_ok.mp hfinish
  obtain ⟨selector, hselector, hfinish⟩ := bind_eq_ok.mp hfinish
  obtain rfl := pure_eq_ok.mp hfinish
  exact ⟨field?_of_addTo QueryParts.fills_operation trivial rfl hp (eq_some_of_required hop),
    field?_of_addTo QueryParts.fills_selector trivial rfl hp (eq_some_of_required hselector)⟩

/-- A query of a text is that of its document. -/
theorem Query.ofDoc_of_ofJsonText {text : String} {q : Query} (h : ofJsonText text = .ok q) :
    ofDoc (readText text).doc = .ok q := by
  obtain ⟨q', hq, h⟩ := bind_eq_ok.mp h
  split at h
  next => cases h
  next =>
    cases h
    exact hq

/-- A decoded query keeps the data model exactly if its text, in the form of objects or of arrays,
    writes no compound selector without fields, and with the operation that deletes the simple
    selector of the identity and no other. Decoding adds no check of its own to this. -/
theorem decoded_keeps_data_model_iff {text : String} {q : Query}
    (h : Query.ofJsonText text = .ok q) :
    q.KeepsDataModel ↔
      ¬ (readText text).doc.WritesSelector "compound" "fields" (.array .close) ∧
        ((readText text).doc.WritesOperation "delete" →
          (readText text).doc.WritesSelector "simple" "field" (.string (.ok "id"))) := by
  obtain ⟨⟨o, ho, hop⟩, s, hs, hselector⟩ := Query.fields_of_ofDoc (Query.ofDoc_of_ofJsonText h)
  have hwrites (kind key : String) (value : Doc) :
      (readText text).doc.WritesSelector kind key value ↔ s.Holds kind key value := by
    constructor
    · rintro ⟨s', hs', hholds⟩
      obtain rfl := Option.some.inj (hs.symm.trans hs')
      exact hholds
    · exact fun hholds => ⟨s, hs, hholds⟩
  have hdeletes : (readText text).doc.WritesOperation "delete" ↔ q.operation = .delete := by
    have hname : q.operation.name = "delete" ↔ q.operation = .delete := by
      cases q.operation <;> decide
    rw [← hname, ← Doc.names_iff_of_asVariant hop "delete"]
    constructor
    · rintro ⟨o', ho', hnames⟩
      obtain rfl := Option.some.inj (ho.symm.trans ho')
      exact hnames
    · exact fun hnames => ⟨o, ho, hnames⟩
  rw [hwrites, hwrites, hdeletes, ← Selector.eq_compound_nil_iff hselector,
    ← Selector.eq_simple_iff hselector]
  exact ⟨fun hq => ⟨hq.compound, hq.delete⟩, fun hq => ⟨hq.1, hq.2⟩⟩

/-- A query that deletes, as an array that has another array for the selector. -/
def positionalDelete : String := "[\x7b\"delete\":null\x7d,null,[\"simple\",\"id\"]]"

/-- The selector of this array is the identity, so the query keeps the data model. -/
theorem positionalDelete_keeps_data_model :
    Query.ofJsonText positionalDelete = .ok { operation := .delete, selector := .identity } ∧
      ¬ (readText positionalDelete).doc.WritesSelector "compound" "fields" (.array .close) ∧
      ((readText positionalDelete).doc.WritesOperation "delete" →
        (readText positionalDelete).doc.WritesSelector "simple" "field" (.string (.ok "id"))) := by
  have hquery : Query.ofJsonText positionalDelete =
      .ok { operation := .delete, selector := .identity } :=
    eq_ok_of_toOption (by decide +kernel)
  exact ⟨hquery, (decoded_keeps_data_model_iff hquery).mp (by decide)⟩

/-- An empty list of fields is decoded as it stands, and so is another selector than the identity in
    a query that deletes. -/
theorem decoded_breaks_data_model :
    (∃ q, Query.ofJsonText
        "\x7b\"op\":\"select\",\"selector\":\x7b\"kind\":\"compound\",\"fields\":[]\x7d\x7d" =
          .ok q ∧
        q.selector = .compound []) ∧
      ∃ q, Query.ofJsonText
          "\x7b\"op\":\"delete\",\"selector\":\x7b\"kind\":\"simple\",\"field\":\"a\"\x7d\x7d" =
            .ok q ∧
        q.operation = .delete ∧ q.selector ≠ .identity := by
  constructor
  · exact ⟨{ operation := .select, selector := .compound [] },
      eq_ok_of_toOption (by decide +kernel), rfl⟩
  · exact ⟨{ operation := .delete, selector := .simple "a" },
      eq_ok_of_toOption (by decide +kernel), rfl, by decide⟩

end RecordQuery
