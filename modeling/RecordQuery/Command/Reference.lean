/-
  RecordQuery.Command.Reference

  The language reference that the command line shows.
-/

namespace RecordQuery.Command

/-- The reference, ready to be printed. -/
def reference : String :=
"MCQL LANGUAGE REFERENCE

mcql compiles record queries into a typed AST. Keywords are case-insensitive
and can be respelled with a vocabulary file (--vocabulary).

QUERY SHAPE

  select SELECTOR [from NAMESPACE] [where CRITERIA] [order by ORDER] [limit N]
  delete [from NAMESPACE] [where CRITERIA] [limit N]

SELECTORS

  field             Single field (* selects the whole record)
  a, b, c           Projection list, order preserved
  count(*)          Function applied to one field

NAMESPACES

  images.dpla       Exact namespace
  images.*          Namespace prefix

CRITERIA

  field = \"text\"    Value comparison (= or !=); bare words are allowed
  field > 10        Range comparison (<, <=, >, >=); value must be an integer
  field in \"text\"   Index membership
  a and b           Both hold (binds tighter than or)
  a or b            Either holds
  not a             Negation (binds tightest)
  ( ... )           Grouping

ORDERING

  order by timestamp desc, counter
                    Most significant key first; asc is the default

ERRORS

  syntax error      Text does not match the grammar; nothing is compiled
  value error       A range value is not an integer, or the limit is not a
                    non-negative integer
  nesting           not and ( ... ) may nest at most 256 levels deep
                    (max_nesting in the vocabulary file)

EXAMPLES

  mcql compile 'select * from images.dpla where wki = \"dpla_1234\"'
  mcql compile 'select count(*) from images.*'
  mcql compile 'delete from images.dpla where timestamp < 1475000000'
  echo 'select id, publisher limit 10' | mcql compile --pretty
  mcql actions 'select * where not (a = \"x\" and b > 3)'
"

end RecordQuery.Command
