/-
  RecordQuery.Proofs.Query.Number

  The numbers of a query and the words that write them. A draft holds these words as they are
  written; reading it fails with the first from the left that is no numeral, and otherwise gives a
  query whose numbers are those of the words, one for one. The zeros that stand in for bad words
  while actions run are never in a query that is read.
-/

import Mathlib.Data.List.Forall2
import RecordQuery.Proofs.Assembly.Replay
import RecordQuery.Proofs.Text.Integer

namespace RecordQuery

/-! ## Numbers and the words that write them -/

/-- A number of a query, with what it is for. -/
inductive QueryNumber where
  | bound (field : String) (op : RangeOp) (value : Int64)
  | limit (value : UInt64)
deriving DecidableEq, Repr

/-- A word that stands where a number should, with what it is for. -/
inductive NumberWord where
  | bound (field : String) (op : RangeOp) (word : String)
  | limit (word : String)
deriving DecidableEq, Repr

namespace NumberWord

/-- The word is a numeral of the number: a signed one for a bound, an unsigned one for a limit. -/
inductive Writes : NumberWord → QueryNumber → Prop
  | bound {field word : String} {op : RangeOp} {n : Int64}
      (h : Text.WritesInteger word.toList n.toInt) : Writes (.bound field op word) (.bound field op n)
  | limit {word : String} {n : UInt64} (h : Text.WritesNatural word.toList n.toNat) :
      Writes (.limit word) (.limit n)

/-- The error of a word that is no numeral, with the reason for which reading it fails. -/
def fault? : NumberWord → Option ValueError
  | .bound field _ word =>
    match Text.readSigned word with
    | .ok _ => none
    | .error fault => some (.invalidRangeValue field word fault)
  | .limit word =>
    match Text.readUnsigned word with
    | .ok _ => none
    | .error fault => some (.invalidLimit word fault)

/-- A word has no fault exactly if it writes a number. -/
theorem fault?_eq_none_iff {w : NumberWord} : w.fault? = none ↔ ∃ n, w.Writes n := by
  cases w with
  | bound field op word =>
      cases hread : Text.readSigned word with
      | ok n =>
          simp only [fault?, hread, true_iff]
          exact ⟨_, .bound (Text.readSigned_eq_ok_iff.mp hread)⟩
      | error fault =>
          simp only [fault?, hread, reduceCtorEq, false_iff]
          rintro ⟨_, hw⟩
          cases hw with
          | bound h =>
              rw [← Text.readSigned_eq_ok_iff, hread] at h
              cases h
  | limit word =>
      cases hread : Text.readUnsigned word with
      | ok n =>
          simp only [fault?, hread, true_iff]
          exact ⟨_, .limit (Text.readUnsigned_eq_ok_iff.mp hread)⟩
      | error fault =>
          simp only [fault?, hread, reduceCtorEq, false_iff]
          rintro ⟨_, hw⟩
          cases hw with
          | limit h =>
              rw [← Text.readUnsigned_eq_ok_iff, hread] at h
              cases h

end NumberWord

/-- The bounds of criteria, from left to right. -/
def Criteria.numbers : Criteria → List QueryNumber
  | .range field op n => [.bound field op n]
  | .value _ _ _ | .index _ _ => []
  | .compound _ left right => left.numbers ++ right.numbers
  | .negated criteria => criteria.numbers

/-- The numbers of a query, in the order in which its parts are written. -/
def Query.numbers (q : Query) : List QueryNumber :=
  q.criteria.toList.flatMap Criteria.numbers ++ (q.limit.map QueryNumber.limit).toList

/-! ## The words of a draft -/

/-- The words of a condition that should be integers, from left to right. -/
def Condition.numberWords : Condition → List NumberWord
  | .range field op word => [.bound field op word]
  | .value _ _ _ | .index _ _ => []
  | .compound _ left right => left.numberWords ++ right.numberWords
  | .negated condition => condition.numberWords

namespace Draft

/-- The words of a draft that should be numerals. -/
def numberWords : Draft → List NumberWord
  | .select _ _ filter _ limit | .delete _ filter limit =>
    filter.toList.flatMap Condition.numberWords ++ (limit.map NumberWord.limit).toList

end Draft

namespace Condition

/-- The words of a condition that are no integers are those of all its words with a fault. -/
theorem faults_eq (c : Condition) : c.faults = c.numberWords.filterMap NumberWord.fault? := by
  induction c with
  | value => rfl
  | range field op word =>
      cases h : Text.readSigned word <;> simp [faults, numberWords, NumberWord.fault?, h]
  | index => rfl
  | compound op left right ihl ihr =>
      rw [faults, numberWords, List.filterMap_append, ihl, ihr]
  | negated c ih => exact ih

/-- Criteria that are read have the numbers that the words of their condition write. -/
theorem writes_of_read {c : Condition} {criteria : Criteria} (h : c.read = .ok criteria) :
    List.Forall₂ NumberWord.Writes c.numberWords criteria.numbers := by
  induction c generalizing criteria with
  | value =>
      cases h
      exact .nil
  | range field op word =>
      rw [read] at h
      split at h
      next n hread =>
        cases h
        exact .cons (.bound (Text.readSigned_eq_ok_iff.mp hread)) .nil
      next => cases h
  | index =>
      cases h
      exact .nil
  | compound op left right ihleft ihright =>
      obtain ⟨l, hl, h⟩ := bind_eq_ok.mp h
      obtain ⟨r, hr, h⟩ := bind_eq_ok.mp h
      obtain rfl := pure_eq_ok.mp h
      exact List.rel_append (ihleft hl) (ihright hr)
  | negated c ih =>
      obtain ⟨k, hk, h⟩ := bind_eq_ok.mp h
      obtain rfl := pure_eq_ok.mp h
      rw [numberWords, Criteria.numbers]
      exact ih hk

end Condition

namespace Draft

theorem limitFaults_eq (limit : Option String) :
    limitFaults limit = (limit.map NumberWord.limit).toList.filterMap NumberWord.fault? := by
  cases limit with
  | none => rfl
  | some word =>
      cases h : Text.readUnsigned word <;> simp [limitFaults, NumberWord.fault?, h]

theorem faults_eq (d : Draft) : d.faults = d.numberWords.filterMap NumberWord.fault? := by
  have hfilter : ∀ filter, filterFaults filter =
      (filter.toList.flatMap Condition.numberWords).filterMap NumberWord.fault? := by
    intro filter
    cases filter with
    | none => rfl
    | some c => rw [Option.toList_some, List.flatMap_singleton, filterFaults, c.faults_eq]
  cases d with
  | select => rw [faults, numberWords, List.filterMap_append, hfilter, limitFaults_eq]
  | delete => rw [faults, numberWords, List.filterMap_append, hfilter, limitFaults_eq]

theorem writes_of_readFilter {filter : Option Condition} {criteria : Option Criteria}
    (h : readFilter filter = .ok criteria) :
    List.Forall₂ NumberWord.Writes (filter.toList.flatMap Condition.numberWords)
      (criteria.toList.flatMap Criteria.numbers) := by
  cases filter with
  | none =>
      cases h
      exact .nil
  | some c =>
      obtain ⟨k, hk, rfl⟩ := map_eq_ok.mp h
      rw [Option.toList_some, Option.toList_some, List.flatMap_singleton, List.flatMap_singleton]
      exact c.writes_of_read hk

theorem writes_of_readLimit {limit : Option String} {n : Option UInt64}
    (h : readLimit limit = .ok n) :
    List.Forall₂ NumberWord.Writes (limit.map NumberWord.limit).toList
      (n.map QueryNumber.limit).toList := by
  cases limit with
  | none =>
      cases h
      exact .nil
  | some word =>
      rw [readLimit] at h
      split at h
      next n hread =>
        cases h
        exact .cons (.limit (Text.readUnsigned_eq_ok_iff.mp hread)) .nil
      next => cases h

/-- A draft that is read has a numeral for each number of its query. -/
theorem writes_of_read {d : Draft} {q : Query} (h : d.read = .ok q) :
    List.Forall₂ NumberWord.Writes d.numberWords q.numbers := by
  cases d with
  | select =>
      obtain ⟨criteria, hcriteria, h⟩ := bind_eq_ok.mp h
      obtain ⟨limit, hlimit, h⟩ := bind_eq_ok.mp h
      obtain rfl := pure_eq_ok.mp h
      exact List.rel_append (writes_of_readFilter hcriteria) (writes_of_readLimit hlimit)
  | delete =>
      obtain ⟨criteria, hcriteria, h⟩ := bind_eq_ok.mp h
      obtain ⟨limit, hlimit, h⟩ := bind_eq_ok.mp h
      obtain rfl := pure_eq_ok.mp h
      exact List.rel_append (writes_of_readFilter hcriteria) (writes_of_readLimit hlimit)

end Draft

/-! ## Reading the words -/

/-- A value is reported exactly if no error waits. -/
theorem report_eq_ok_iff {ε α : Type} {faults : List ε} {a b : α} :
    report faults a = .ok b ↔ faults = [] ∧ a = b := by
  cases faults <;> simp [report]

/-- The error that is reported is the first that waits. -/
theorem report_eq_error_iff {ε α : Type} {faults : List ε} {a : α} {e : ε} :
    report faults a = .error e ↔ faults.head? = some e := by
  cases faults <;> simp [report]

/-- The reading of a draft fails with the fault of the first word that is no numeral. -/
theorem Draft.read_eq_error_iff {d : Draft} {e : ValueError} :
    d.read = .error e ↔ ∃ before w after, d.numberWords = before ++ w :: after ∧
      (∀ u ∈ before, ∃ n, u.Writes n) ∧ w.fault? = some e := by
  rw [d.read_eq_report, report_eq_error_iff, d.faults_eq, List.head?_filterMap,
    List.findSome?_eq_some_iff]
  constructor
  · rintro ⟨before, w, after, hwords, hw, hbefore⟩
    exact ⟨before, w, after, hwords,
      fun u hu => NumberWord.fault?_eq_none_iff.mp (hbefore u hu), hw⟩
  · rintro ⟨before, w, after, hwords, hbefore, hw⟩
    exact ⟨before, w, after, hwords, hw,
      fun u hu => NumberWord.fault?_eq_none_iff.mpr (hbefore u hu)⟩

/-- A draft is read exactly if each of its words writes a number. -/
theorem Draft.exists_read_iff {d : Draft} :
    (∃ q, d.read = .ok q) ↔ ∀ w ∈ d.numberWords, ∃ n, w.Writes n := by
  have hfaults : d.faults = [] ↔ ∀ w ∈ d.numberWords, ∃ n, w.Writes n := by
    rw [d.faults_eq, List.filterMap_eq_nil_iff]
    exact forall₂_congr fun _ _ => NumberWord.fault?_eq_none_iff
  rw [← hfaults, d.read_eq_report]
  simp [report_eq_ok_iff]

end RecordQuery
