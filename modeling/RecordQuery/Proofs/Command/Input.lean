/-
  RecordQuery.Proofs.Command.Input

  Where a query comes from makes no difference. A command that reads its query from the standard
  input does what it would do for the same text among its arguments: the whitespace that is taken
  from the ends of the input is no part of the query.
-/

import RecordQuery.Command.Run
import RecordQuery.Proofs.Compilation
import RecordQuery.Proofs.Token.Trimming

namespace RecordQuery

/-! ## Queries without the whitespace at their ends -/

section Trimming

variable {v : Vocabulary} {s : String}

/-- What is recognized is recognized with whitespace at its ends and without. -/
theorem recognize_trim_eq_ok_iff {actions : List Action} :
    recognize v (Text.trim s) = .ok actions ↔ recognize v s = .ok actions := by
  simp only [recognize_eq_ok_iff, tokenize_trim_eq_ok_iff]

/-- Trimming can change nothing but the error of a text that is no query either way. -/
theorem recognize_trim (v : Vocabulary) (s : String) :
    recognize v (Text.trim s) = recognize v s ∨
      ∃ e e', recognize v (Text.trim s) = .error e ∧ recognize v s = .error e' := by
  cases h : recognize v s with
  | ok actions => exact .inl (recognize_trim_eq_ok_iff.mpr h)
  | error e' =>
      cases h' : recognize v (Text.trim s) with
      | ok actions =>
          rw [recognize_trim_eq_ok_iff.mp h'] at h
          cases h
      | error e => exact .inr ⟨e, e', rfl, rfl⟩

theorem compileWith_congr {t : String} (h : recognize v s = recognize v t) :
    compileWith v s = compileWith v t := by
  rw [compileWith, compileWith, h]

/-- What compiles compiles to the same query with whitespace at its ends and without. -/
theorem compileWith_trim_eq_ok_iff {q : Query} :
    compileWith v (Text.trim s) = .ok q ↔ compileWith v s = .ok q := by
  obtain h | ⟨e, e', he, he'⟩ := recognize_trim v s
  · rw [compileWith_congr h]
  · rw [compileWith_of_error he, compileWith_of_error he']
    simp

/-- A text with a bad numeral is a query in all else. -/
theorem exists_recognize_of_badValue {e : ValueError} (h : compileWith v s = .error (.badValue e)) :
    ∃ actions, recognize v s = .ok actions := by
  cases hr : recognize v s with
  | ok actions => exact ⟨actions, rfl⟩
  | error e' =>
      rw [compileWith_of_error hr] at h
      cases h

end Trimming

namespace Command

/-! ## Queries among the arguments -/

/-- Only two hyphens end the options. -/
theorem Argument.eq_of_endOfOptions {s : String} (h : ofString s = .endOfOptions) : s = "--" := by
  unfold ofString at h
  split at h
  next hs => exact String.toList_injective hs
  next => split at h <;> cases h
  all_goals cases h

theorem Argument.not_mem_of_ne {s : String} (h : ofString s ≠ .endOfOptions) : "--" ∉ [s] := by
  intro hmem
  obtain rfl := List.mem_singleton.mp hmem
  exact h rfl

/-- The command line with a query behind the two hyphens that end its options. -/
def withQuery (args : List String) (text : String) : List String :=
  if "--" ∈ args then args ++ [text] else args ++ ["--", text]

/-- The query is put behind the last arguments. -/
theorem withQuery_append {used : List String} (h : "--" ∉ used) (rest : List String)
    (text : String) : withQuery (used ++ rest) text = used ++ withQuery rest text := by
  by_cases hrest : "--" ∈ rest <;> simp [withQuery, h, hrest]

theorem withQuery_cons {arg : String} (h : Argument.ofString arg ≠ .endOfOptions)
    (rest : List String) (text : String) :
    withQuery (arg :: rest) text = arg :: withQuery rest text :=
  withQuery_append (Argument.not_mem_of_ne h) rest text

/-- How the arguments of a subcommand are read: a few at a time, up to the end or to the two hyphens
    that end the options. -/
inductive Reads (s : Subcommand) : Options → List String → Options → Prop
  | done (o : Options) : Reads s o [] o
  | ended {o o' : Options} {rest : List String} (h : addPositionals s o rest = some o') :
      Reads s o ("--" :: rest) o'
  | more {o p o' : Options} {used rest : List String} (hused : "--" ∉ used)
      (hstep : ∀ args, addArguments s o (used ++ args) = addArguments s p args)
      (h : Reads s p rest o') : Reads s o (used ++ rest) o'

/-- The arguments in front are read into options, and the others into those. -/
theorem Reads.bind {s : Subcommand} {o o' : Options} {used rest : List String}
    (hused : "--" ∉ used) (next : Option Options)
    (hnext : ∀ args, addArguments s o (used ++ args) = next >>= fun p => addArguments s p args)
    (ih : ∀ p, addArguments s p rest = some o' → Reads s p rest o')
    (h : addArguments s o (used ++ rest) = some o') : Reads s o (used ++ rest) o' := by
  rw [hnext] at h
  obtain ⟨p, rfl, hp⟩ := Option.bind_eq_some_iff.mp h
  exact .more hused hnext (ih p hp)

/-- The options of a subcommand are read from its arguments one step at a time. -/
theorem reads_of_addArguments {s : Subcommand} {o o' : Options} {args : List String}
    (h : addArguments s o args = some o') : Reads s o args o' := by
  induction o, args using addArguments.induct s with
  | case1 o =>
      obtain rfl := Option.some.inj h
      exact .done o
  | case2 o arg rest harg =>
      rw [addArguments, harg] at h
      obtain rfl := Argument.eq_of_endOfOptions harg
      exact .ended h
  | case3 o arg hs path rest harg ih =>
      have hused : "--" ∉ [arg] := Argument.not_mem_of_ne (by simp [harg])
      refine Reads.bind hused (o.addVocabulary path) (fun args => ?_) ih h
      rw [List.singleton_append, addArguments, harg]
      exact if_pos hs
  | case5 o arg hs path rest path' hpath harg ih =>
      have hused : "--" ∉ [arg] ++ [path] :=
        List.not_mem_append (Argument.not_mem_of_ne (by simp [harg]))
          (Argument.not_mem_of_ne (by simp [hpath]))
      refine Reads.bind hused (o.addVocabulary path') (fun args => ?_) ih h
      rw [List.append_assoc, List.singleton_append, List.singleton_append, addArguments, harg]
      simp only [hs, if_true, hpath]
  | case9 o arg rest name hname harg ih =>
      have hused : "--" ∉ [arg] := Argument.not_mem_of_ne (by simp [harg])
      refine Reads.bind hused (s.longFlag? name >>= o.addFlag) (fun args => ?_) ih h
      rw [List.singleton_append, addArguments, harg, bind_assoc]
      split
      next heq => cases heq
      next heq => exact (hname (Argument.long.inj heq).1).elim
      next heq => cases heq
      next heq => cases heq; rfl
      next heq => cases heq
      next heq => cases heq
  | case10 o arg rest letters harg ih =>
      have hused : "--" ∉ [arg] := Argument.not_mem_of_ne (by simp [harg])
      refine Reads.bind hused (letters.mapM s.shortFlag? >>= fun fs => fs.foldlM Options.addFlag o)
        (fun args => ?_) ih h
      rw [List.singleton_append, addArguments, harg, bind_assoc]
  | case11 o arg rest text harg hs ih =>
      have hused : "--" ∉ [arg] := Argument.not_mem_of_ne (by simp [harg])
      refine Reads.bind hused (o.addQuery text) (fun args => ?_) ih h
      rw [List.singleton_append, addArguments, harg]
      exact if_pos hs
  -- The other arguments are refused.
  | case4 | case6 | case7 | case8 | case12 =>
      simp_all [addArguments]

/-- Every argument behind the end of the options is a query. -/
theorem eq_of_addPositionals {s : Subcommand} {o o' : Options} {rest : List String}
    (h : addPositionals s o rest = some o') (hquery : o'.query = none) : rest = [] ∧ o' = o := by
  cases rest with
  | nil => exact ⟨rfl, (Option.some.inj h).symm⟩
  | cons text more =>
      rw [addPositionals] at h
      split at h
      next =>
        obtain ⟨p, hp, h⟩ := Option.bind_eq_some_iff.mp h
        have hset : p.query = some text := by
          unfold Options.addQuery at hp
          split at hp
          · cases hp
          · obtain rfl := Option.some.inj hp
            rfl
        cases more with
        | nil =>
            obtain rfl := Option.some.inj h
            rw [hset] at hquery
            cases hquery
        | cons text' more => simp [addPositionals, Options.addQuery, hset] at h
      next => cases h

/-- Arguments that leave the query to the standard input can be followed by one. -/
theorem addArguments_withQuery {s : Subcommand} {o o' : Options} {args : List String}
    (hs : s.takesQuery = true) (h : Reads s o args o') (hquery : o'.query = none) (text : String) :
    addArguments s o (withQuery args text) = some { o' with query := some text } := by
  have hlast {o : Options} (ho : o.query = none) :
      addPositionals s o [text] = some { o with query := some text } := by
    simp [addPositionals, hs, Options.addQuery, ho]
  induction h with
  | done o => exact hlast hquery
  | @ended o o' rest h =>
      obtain ⟨rfl, rfl⟩ := eq_of_addPositionals h hquery
      exact hlast hquery
  | more hused hstep h ih =>
      rw [withQuery_append hused, hstep]
      exact ih hquery

/-- A command line that leaves the query to the standard input can be given it as well. -/
theorem readRequest_withQuery {verbose : Bool} {s : Subcommand} {o : Options} {args : List String}
    (hs : s.takesQuery = true) (h : readRequest verbose args = some (.command s o))
    (hquery : o.query = none) (text : String) :
    readRequest verbose (withQuery args text) = some (.command s { o with query := some text }) := by
  induction verbose, args using readRequest.induct with
  | case5 verbose arg rest harg hverbose ih =>
      rw [withQuery_cons (by simp [harg])]
      rw [readRequest, harg] at h ⊢
      simp only [hverbose] at h ⊢
      exact ih h
  | case8 verbose arg rest letters harg verbose' hletters ih =>
      rw [withQuery_cons (by simp [harg])]
      rw [readRequest, harg] at h ⊢
      simp only [hletters] at h ⊢
      exact ih h
  | case10 verbose arg rest name harg =>
      rw [withQuery_cons (by simp [harg])]
      rw [readRequest, harg] at h ⊢
      obtain ⟨s', hname, h⟩ := Option.bind_eq_some_iff.mp h
      obtain ⟨o', hargs, h⟩ := Option.bind_eq_some_iff.mp h
      obtain ⟨rfl, rfl⟩ := Request.command.inj (Option.some.inj h)
      have hread := addArguments_withQuery hs (reads_of_addArguments hargs) hquery text
      exact Option.bind_eq_some_iff.mpr ⟨s', hname, Option.bind_eq_some_iff.mpr ⟨_, hread, rfl⟩⟩
  -- The other command lines make no request for a subcommand.
  | case1 | case2 | case3 | case4 | case6 | case7 | case9 =>
      simp_all [readRequest]

/-! ## Outcomes -/

section Outcome

variable {engine : PatternEngine} {files : Files} {o : Options} {v : Vocabulary} {s t : String}

/-- The output of a subcommand for the text of a query. -/
def queryOutput (engine : PatternEngine) (files : Files) (c : Subcommand) (o : Options)
    (text : String) : Except Failure String :=
  match c with
  | .compile => compileOutput files o text engine
  | .actions => actionsOutput files o text engine
  | .docs => .ok reference

/-- The outcome of a command with that output. -/
def Outcome.ofOutput : Except Failure String → Outcome
  | .ok output => .success output
  | .error e => .failure e

theorem run_of_command {args : List String} {c : Subcommand}
    (h : Request.ofArguments? args = some (.command c o)) (engine : PatternEngine) (files : Files)
    (input : String) :
    run files input args engine = .ofOutput (queryOutput engine files c o (o.text input)) := by
  rw [run, h]
  cases c <;> rfl

/-- The output depends on the text through what is recognized in it. -/
theorem queryOutput_congr {c : Subcommand} (hv : loadVocabulary files o.vocabulary engine = .ok v)
    (h : recognize v s = recognize v t) :
    queryOutput engine files c o s = queryOutput engine files c o t := by
  have hlist : listActions files o.vocabulary s engine =
      listActions files o.vocabulary t engine := by
    rw [listActions, listActions, bind_of_ok _ hv, bind_of_ok _ hv, h]
  have hcompile : compileQuery files o.vocabulary s engine =
      compileQuery files o.vocabulary t engine := by
    rw [compileQuery, compileQuery, bind_of_ok _ hv, bind_of_ok _ hv, compileWith_congr h]
  cases c with
  | compile => simp only [queryOutput, compileOutput, checkOrCompile, hlist, hcompile]
  | actions => simp only [queryOutput, actionsOutput, hlist]
  | docs => rfl

/-- How a command fails for a text that is no query. -/
def refusal (c : Subcommand) (o : Options) (e : SyntaxError) : Failure :=
  match c with
  | .compile => if .syntaxOnly ∈ o.flags then .malformed e else .compile (.malformed e)
  | .actions | .docs => .malformed e

/-- A text that is no query fails every command that takes one. -/
theorem queryOutput_of_error {c : Subcommand} {e : SyntaxError} (hc : c.takesQuery = true)
    (hv : loadVocabulary files o.vocabulary engine = .ok v) (h : recognize v s = .error e) :
    queryOutput engine files c o s = .error (refusal c o e) := by
  have hlist : listActions files o.vocabulary s engine = .error (.malformed e) := by
    rw [listActions, bind_of_ok _ hv, h]
    rfl
  have hcompile : compileQuery files o.vocabulary s engine = .error (.compile (.malformed e)) := by
    rw [compileQuery, bind_of_ok _ hv, compileWith_of_error h]
    rfl
  cases c with
  | compile =>
      have hcheck : checkOrCompile files o.vocabulary (.syntaxOnly ∈ o.flags) s engine =
          .error (refusal .compile o e) := by
        unfold checkOrCompile refusal
        by_cases hflag : .syntaxOnly ∈ o.flags
        · simp only [hflag, decide_true, if_true]
          exact map_eq_error.mpr hlist
        · simp only [hflag, decide_false, Bool.false_eq_true, if_false]
          exact map_eq_error.mpr hcompile
      exact bind_of_error _ hcheck
  | actions => exact bind_of_error _ hlist
  | docs => cases hc

/-- Without a vocabulary the text is not looked at. -/
theorem queryOutput_of_unloaded {c : Subcommand} {f : Failure}
    (hv : loadVocabulary files o.vocabulary engine = .error f) :
    queryOutput engine files c o s = queryOutput engine files c o t := by
  have hlist (text : String) : listActions files o.vocabulary text engine = .error f :=
    bind_of_error _ hv
  have hcompile (text : String) : compileQuery files o.vocabulary text engine = .error f :=
    bind_of_error _ hv
  cases c with
  | compile => simp only [queryOutput, compileOutput, checkOrCompile, hlist, hcompile]
  | actions => simp only [queryOutput, actionsOutput, hlist]
  | docs => rfl

/-- Trimming a text changes nothing but what is said about a text that is no query. -/
theorem queryOutput_trim {c : Subcommand} (hc : c.takesQuery = true) (engine : PatternEngine)
    (files : Files) (o : Options) (s : String) :
    queryOutput engine files c o (Text.trim s) = queryOutput engine files c o s ∨
      ∃ f f', queryOutput engine files c o (Text.trim s) = .error f ∧
        queryOutput engine files c o s = .error f' := by
  cases hv : loadVocabulary files o.vocabulary engine with
  | error f => exact .inl (queryOutput_of_unloaded hv)
  | ok v =>
      obtain h | ⟨e, e', he, he'⟩ := recognize_trim v s
      · exact .inl (queryOutput_congr hv h)
      · exact .inr ⟨_, _, queryOutput_of_error hc hv he, queryOutput_of_error hc hv he'⟩

end Outcome

/-- A query on the standard input and the same query among the arguments end in the same code and
    the same output; a bad numeral in it also in the same message. Trimming the input changes
    neither what is accepted nor what is compiled. Under `--verbose` this is said of the messages
    without the log, which is no part of an outcome. -/
theorem input_equals_argument {args : List String} {c : Subcommand} {o : Options}
    (hargs : Request.ofArguments? args = some (.command c o)) (hc : c.takesQuery = true)
    (hquery : o.query = none) (engine : PatternEngine) (files : Files) (s input : String) :
    (run files s args engine).code = (run files input (withQuery args s) engine).code ∧
      (run files s args engine).output = (run files input (withQuery args s) engine).output ∧
      (∀ v e, loadVocabulary files o.vocabulary engine = .ok v →
        compileWith v s = .error (.badValue e) →
        (run files s args engine).errors = (run files input (withQuery args s) engine).errors) ∧
      ∀ v, (∀ actions, recognize v (Text.trim s) = .ok actions ↔ recognize v s = .ok actions) ∧
        ∀ q, compileWith v (Text.trim s) = .ok q ↔ compileWith v s = .ok q := by
  have hpiped : run files s args engine =
      .ofOutput (queryOutput engine files c o (Text.trim s)) := by
    rw [run_of_command hargs, Options.text, hquery]
    rfl
  have hgiven : run files input (withQuery args s) engine =
      .ofOutput (queryOutput engine files c o s) := by
    rw [run_of_command (readRequest_withQuery hc hargs hquery s)]
    cases c <;> rfl
  rw [hpiped, hgiven]
  refine ⟨?_, ?_, ?_, fun v => ⟨fun _ => recognize_trim_eq_ok_iff,
    fun _ => compileWith_trim_eq_ok_iff⟩⟩
  · obtain h | ⟨f, f', hf, hf'⟩ := queryOutput_trim hc engine files o s
    · rw [h]
    · rw [hf, hf']
      rfl
  · obtain h | ⟨f, f', hf, hf'⟩ := queryOutput_trim hc engine files o s
    · rw [h]
    · rw [hf, hf']
      rfl
  · intro v e hv hbad
    obtain ⟨actions, hactions⟩ := exists_recognize_of_badValue hbad
    rw [queryOutput_congr hv ((recognize_trim_eq_ok_iff.mpr hactions).trans hactions.symm)]

/-- A query with a bad numeral and whitespace at its ends. -/
def spacedText : String := "\t select * limit 1x \n"

/-- A bad numeral is reported alike for a query on the standard input and among the arguments. -/
theorem spacedText_reported_alike :
    (run (fun _ => .error .notFound) spacedText ["compile", "-p"]).errors =
      (run (fun _ => .error .notFound) "" (withQuery ["compile", "-p"] spacedText)).errors := by
  have hargs : Request.ofArguments? ["compile", "-p"] =
      some (.command .compile { flags := [.pretty] }) := by decide
  have hbad : compileWith .standard spacedText =
      .error (.badValue (.invalidLimit "1x" .invalidDigit)) := by decide +kernel
  have hsame :=
    input_equals_argument hargs rfl rfl .dialect (fun _ => .error .notFound) spacedText ""
  exact hsame.2.2.1 .standard _ rfl hbad

end Command

end RecordQuery
