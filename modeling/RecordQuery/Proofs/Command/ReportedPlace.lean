/-
  RecordQuery.Proofs.Command.ReportedPlace

  Which place a command tells for the error of a query. A query on the standard input is told of as
  it is without the whitespace at its ends, and the same query among the arguments as it is. So the
  two messages differ wherever that whitespace is seen in them: in a line or a column that it moves,
  in the end of the text, or in a backslash that stands in front of it.
-/

import RecordQuery.Proofs.Command.Input
import RecordQuery.Proofs.Grammar.Message

namespace RecordQuery.Command

section

variable {engine : PatternEngine} {files : Files} {args : List String} {c : Subcommand}
  {o : Options} {v : Vocabulary} {s : String} {e e' : SyntaxError}

theorem refusal_message_eq_iff :
    (refusal c o e).message = (refusal c o e').message ↔ e.message = e'.message := by
  have hsyntax : (Failure.malformed e).message = (Failure.malformed e').message ↔
      e.message = e'.message := String.append_right_inj _
  have hcompile : (Failure.compile (.malformed e)).message =
      (Failure.compile (.malformed e')).message ↔ e.message = e'.message :=
    (String.append_right_inj _).trans (String.append_right_inj _)
  cases c with
  | compile =>
      unfold refusal
      by_cases hflag : .syntaxOnly ∈ o.flags
      · simp only [hflag, if_true, hsyntax]
      · simp only [hflag, if_false, hcompile]
  | actions => exact hsyntax
  | docs => exact hsyntax

theorem errors_failure_eq_iff {f f' : Failure} :
    (Outcome.failure f).errors = (Outcome.failure f').errors ↔ f.message = f'.message :=
  String.append_left_inj _

/-- A text on the standard input is refused for the error of the trimmed text. -/
theorem run_of_malformed_input (hargs : Request.ofArguments? args = some (.command c o))
    (hc : c.takesQuery = true) (hquery : o.query = none)
    (hv : loadVocabulary files o.vocabulary engine = .ok v)
    (h : recognize v (Text.trim s) = .error e) :
    run files s args engine = .failure (refusal c o e) := by
  have htext : o.text s = Text.trim s := by
    rw [Options.text, hquery]
    rfl
  rw [run_of_command hargs, htext, queryOutput_of_error hc hv h]
  rfl

/-- A text among the arguments is refused for its own error. -/
theorem run_of_malformed_argument (hargs : Request.ofArguments? args = some (.command c o))
    (hc : c.takesQuery = true) (hquery : o.query = none)
    (hv : loadVocabulary files o.vocabulary engine = .ok v) (h : recognize v s = .error e)
    (input : String) : run files input (withQuery args s) engine = .failure (refusal c o e) := by
  have hrefused : queryOutput engine files c { o with query := some s } s =
      .error (refusal c o e) :=
    queryOutput_of_error (o := { o with query := some s }) hc hv h
  rw [run_of_command (readRequest_withQuery hc hargs hquery s), Options.text, Option.getD_some,
    hrefused]
  rfl

/-- A query that is refused is refused on the standard input and among the arguments. The two
    messages are the same text exactly if the whitespace in front of the query holds no line feed,
    the error is on a later line or there is no such whitespace, and the error tells of the end of
    the text or of a character behind it only if no whitespace stands there. The log that a command
    writes under `--verbose` is no part of the messages. -/
theorem reported_alike_iff (hargs : Request.ofArguments? args = some (.command c o))
    (hc : c.takesQuery = true) (hquery : o.query = none)
    (hv : loadVocabulary files o.vocabulary engine = .ok v) (h : recognize v s = .error e)
    (input : String) :
    ∃ e', recognize v (Text.trim s) = .error e' ∧ Untrimmed s e' e ∧
      run files s args engine = .failure (refusal c o e') ∧
      run files input (withQuery args s) engine = .failure (refusal c o e) ∧
      ((run files s args engine).errors = (run files input (withQuery args s) engine).errors ↔
        '\n' ∉ Text.leading s ∧ (Text.leading s ≠ [] → e.position.line ≠ 1) ∧
          (e.SeesBehind (Text.leading s ++ (Text.trim s).toList).length →
            Text.trailing s = [])) := by
  obtain ⟨e', he', huntrimmed⟩ := untrimmed_of_recognize h
  have hpiped := run_of_malformed_input hargs hc hquery hv he'
  have hgiven := run_of_malformed_argument hargs hc hquery hv h input
  refine ⟨e', he', huntrimmed, hpiped, hgiven, ?_⟩
  rw [hpiped, hgiven, errors_failure_eq_iff, refusal_message_eq_iff]
  exact huntrimmed.message_eq_iff

end

/-- A list of fields that breaks off, with whitespace at its ends and a bad name on its last line.
    -/
def brokenText : String := " select a,\n 9b\n "

/-- Spaces in front of the first line and a line feed at the end do not show in what is said about
    another line. -/
theorem brokenText_reported_alike :
    (run (fun _ => .error .notFound) brokenText ["compile"]).errors =
      (run (fun _ => .error .notFound) "" (withQuery ["compile"] brokenText)).errors := by
  have hargs : Request.ofArguments? ["compile"] = some (.command .compile {}) := by decide
  have hbad : recognize .standard brokenText = .error (.invalidField "9b" ⟨12, 2, 2⟩) := by
    decide +kernel
  have hv : loadVocabulary (fun _ => .error .notFound) none = .ok .standard := rfl
  obtain ⟨e', -, -, -, -, hsame⟩ := reported_alike_iff hargs rfl rfl hv hbad ""
  exact hsame.mpr ⟨by decide +kernel, fun _ => by decide, False.elim⟩

/-- A line feed in front of a query is taken from the line that is reported, and one behind a
    backslash makes it another error. -/
theorem lineFeed_reported_otherwise :
    (run (fun _ => .error .notFound) "\nselect @" ["compile"]).errors =
        "Compile error: syntax error: unexpected character '@' at line 1, column 8\n" ∧
      (run (fun _ => .error .notFound) "" (withQuery ["compile"] "\nselect @")).errors =
        "Compile error: syntax error: unexpected character '@' at line 2, column 8\n" ∧
      (run (fun _ => .error .notFound) "select 'a\\\n" ["compile"]).errors =
        "Compile error: syntax error: unterminated string starting at line 1, column 8\n" ∧
      (run (fun _ => .error .notFound) "" (withQuery ["compile"] "select 'a\\\n")).errors =
        "Compile error: syntax error: invalid escape sequence '\\\n' at line 1, column 10\n" := by
  decide +kernel

end RecordQuery.Command
