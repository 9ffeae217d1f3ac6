/-
  RecordQuery.Proofs.Command.Listing

  Listings of actions tell the actions. A line opens with the name of its action, which has no blank
  in it, and goes on with the listed text of the action if it carries one. Neither has a line break,
  so a listing has one line for each action, and no two lists of actions have the same listing.
-/

import RecordQuery.Command.Run
import RecordQuery.Proofs.Except
import RecordQuery.Proofs.Text.Listing

namespace RecordQuery

namespace Action

/-! ## Lines -/

/-- What a line has behind the name of the action. -/
def tail (text : Option String) : List Char :=
  match text with
  | none => []
  | some text => ' ' :: (Text.listed text).toList

theorem toList_line (a : Action) : a.line.toList = a.parts.1.toList ++ tail a.parts.2 := by
  unfold line
  split
  next name h => simp [h, tail]
  next name text h => simp [h, tail]

/-- The action of a name and a text. -/
def ofParts? : String × Option String → Option Action
  | ("push", some text) => some (.push text)
  | ("set-select-op", none) => some .setSelectOp
  | ("set-delete-op", none) => some .setDeleteOp
  | ("set-simple-selector", none) => some .setSimpleSelector
  | ("set-compound-selector", none) => some .setCompoundSelector
  | ("set-function-selector", none) => some .setFunctionSelector
  | ("set-namespace", some name) => some (.setNamespace name)
  | ("set-criteria", none) => some .setCriteria
  | ("add-value-criteria", none) => some .addValueCriteria
  | ("add-range-criteria", none) => some .addRangeCriteria
  | ("add-index-criteria", none) => some .addIndexCriteria
  | ("add-compound-criteria", none) => some .addCompoundCriteria
  | ("add-negated-criteria", none) => some .addNegatedCriteria
  | ("set-order", none) => some .setOrder
  | ("add-order-selector", none) => some .addOrderSelector
  | ("set-order-direction", none) => some .setOrderDirection
  | ("set-limit", some text) => some (.setLimit text)
  | _ => none

/-- An action is found again by its name and its text. -/
theorem ofParts?_parts (a : Action) : ofParts? a.parts = some a := by
  cases a <;> rfl

/-- An action is told by its name and its text. -/
theorem parts_injective : Function.Injective parts := by
  intro a b h
  have hparts := congrArg ofParts? h
  rw [ofParts?_parts, ofParts?_parts] at hparts
  exact Option.some.inj hparts

theorem name_characters (a : Action) : ' ' ∉ a.parts.1.toList ∧ '\n' ∉ a.parts.1.toList := by
  cases a <;> simp [parts]

/-- What stands behind the name tells whether there is a text, and which. -/
theorem tail_injective : Function.Injective tail := by
  intro s t h
  cases s with
  | none =>
      cases t with
      | none => rfl
      | some t => cases h
  | some s =>
      cases t with
      | none => cases h
      | some t =>
          have hlisted := String.toList_injective (List.cons.inj h).2
          rw [Text.listed_injective hlisted]

/-- An action is told by its line. -/
theorem line_injective : Function.Injective line := by
  intro a b h
  have hchars := congrArg String.toList h
  rw [toList_line, toList_line] at hchars
  -- The name is what stands in front of the first blank.
  have hname (c : Action) : (c.parts.1.toList ++ tail c.parts.2).takeWhile (· != ' ') =
      c.parts.1.toList := by
    have hall : ∀ d ∈ c.parts.1.toList, (d != ' ') = true := by
      intro d hd
      rw [bne_iff_ne]
      rintro rfl
      exact c.name_characters.1 hd
    rw [List.takeWhile_append_of_pos hall]
    cases c.parts.2 <;> simp [tail]
  have hnames : a.parts.1.toList = b.parts.1.toList := by
    rw [← hname a, ← hname b, hchars]
  rw [hnames] at hchars
  have htails := tail_injective (List.append_cancel_left hchars)
  exact parts_injective (Prod.ext (String.toList_injective hnames) htails)

theorem lineFeed_not_mem_line (a : Action) : '\n' ∉ a.line.toList := by
  have htail : '\n' ∉ tail a.parts.2 := by
    cases a.parts.2 with
    | none => simp [tail]
    | some text => simp [tail, Text.lineFeed_not_mem_listed]
  rw [toList_line, List.mem_append]
  exact not_or.mpr ⟨a.name_characters.2, htail⟩

end Action

namespace Command

/-! ## Listings -/

/-- The listing of actions, each on a line that ends with a line feed. -/
def listing (actions : List Action) : String :=
  String.join (actions.map fun a => a.line ++ "\n")

theorem toList_listing_cons (a : Action) (actions : List Action) :
    (listing (a :: actions)).toList = a.line.toList ++ '\n' :: (listing actions).toList := by
  simp [listing]

/-- At its line feeds a listing falls apart into the lines of its actions. -/
theorem splitOn_listing (actions : List Action) :
    (listing actions).toList.splitOn '\n' = actions.map (·.line.toList) ++ [[]] := by
  induction actions with
  | nil => rfl
  | cons a actions ih =>
      rw [toList_listing_cons, List.splitOn_append_cons_self_of_not_mem a.lineFeed_not_mem_line, ih]
      rfl

/-- Actions are told by their listing. -/
theorem listing_injective : Function.Injective listing := by
  intro as bs h
  have hlines := congrArg (·.toList.splitOn '\n') h
  simp only [splitOn_listing] at hlines
  refine (List.map_inj_right fun a b hab => ?_).mp (List.append_cancel_right hlines)
  exact Action.line_injective (String.toList_injective hab)

/-- What the command that lists actions prints is their listing. At its line feeds it falls apart
    into one line for each action, with nothing behind the last one, and it is the listing of no
    other actions. -/
theorem listing_tells_actions :
    (∀ (engine : PatternEngine) (files : Files) (o : Options) (text : String),
      actionsOutput files o text engine =
        (listActions files o.vocabulary text engine).map listing) ∧
    (∀ actions : List Action,
      (listing actions).toList.splitOn '\n' = actions.map (·.line.toList) ++ [[]]) ∧
    ∀ actions actions' : List Action, listing actions = listing actions' ↔ actions = actions' := by
  refine ⟨fun engine files o text => ?_, splitOn_listing, fun _ _ => listing_injective.eq_iff⟩
  rw [actionsOutput]
  cases listActions files o.vocabulary text engine <;> rfl

/-- A text that looks like the line of another action, and one that looks like an escape, are listed
    as what they are. -/
example : listing [.push "a\nset-order", .push "\\u\x7b61\x7d", .setOrder] =
    "push \"a\\nset-order\"\npush \"\\\\u\x7b61\x7d\"\nset-order\n" := by
  decide +kernel

end Command

end RecordQuery
