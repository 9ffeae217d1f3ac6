/-
  RecordQuery.Vocabulary.Keyword

  The reserved words of the query language. Which spelling stands for each of them is up to a
  vocabulary; the standard one spells each by its name.
-/

namespace RecordQuery

/-- A reserved word, by the part that it has in a query. -/
inductive Keyword where
  | select
  | delete
  /-- Opens the clause that names a namespace. -/
  | source
  /-- Opens the clause that holds the criteria. -/
  | filter
  | and
  | or
  | not
  /-- Compares a field with one of its members. -/
  | member
  | order
  /-- Follows `order` in front of the sort keys. -/
  | orderBy
  | asc
  | desc
  | limit
deriving DecidableEq, Repr, Inhabited

namespace Keyword

/-- All keywords, in the order in which a vocabulary lists and checks them. -/
def all : List Keyword :=
  [.select, .delete, .source, .filter, .and, .or, .not, .member, .order, .orderBy, .asc, .desc,
    .limit]

/-- The name of a keyword, which is also its standard spelling. -/
def name : Keyword → String
  | .select => "select"
  | .delete => "delete"
  | .source => "from"
  | .filter => "where"
  | .and => "and"
  | .or => "or"
  | .not => "not"
  | .member => "in"
  | .order => "order"
  | .orderBy => "by"
  | .asc => "asc"
  | .desc => "desc"
  | .limit => "limit"

/-- The keyword of a name. -/
def ofName? (s : String) : Option Keyword :=
  all.find? fun k => k.name == s

/-- The keywords that are listed before `k`. -/
def earlier (k : Keyword) : List Keyword :=
  all.takeWhile (· != k)

theorem mem_all (k : Keyword) : k ∈ all := by
  cases k <;> decide

/-- Of two different keywords one is listed before the other. -/
theorem mem_earlier_or (j k : Keyword) (h : j ≠ k) : j ∈ k.earlier ∨ k ∈ j.earlier := by
  cases j <;> cases k <;> revert h <;> decide

end Keyword

end RecordQuery
