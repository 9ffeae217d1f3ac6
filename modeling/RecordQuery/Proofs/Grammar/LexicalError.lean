/-
  RecordQuery.Proofs.Grammar.LexicalError

  What characters that form no token can hide. They are met when a token is passed, for then the
  next one is read. A name is judged with the token behind it known, so a wrong name directly in
  front of such characters is not reported; but everything in front of that name could be part of a
  query, and a wrong name with any token behind it is what is reported.
-/

import RecordQuery.Proofs.Grammar.CorrectPrefix
import RecordQuery.Proofs.Grammar.Report

namespace RecordQuery

variable {v : Vocabulary} {text : String} {e : SyntaxError} {ts us : List Token} {w : String}

/-! ## The tokens of a text -/

theorem firstTokens_eq_take (text : String) (n : Nat) :
    firstTokens text n = (tokensOf text).take n :=
  List.map_take

theorem firstTokens_of_starts (h : ts <+: tokensOf text) : firstTokens text ts.length = ts := by
  rw [firstTokens_eq_take]
  exact (List.prefix_iff_eq_take.mp h).symm

/-- Where the tokens of a text are cut off by an error, the end is none of them. -/
theorem writable_of_mem_tokensOf {l : LexicalError} (hl : tokenize text = .error l) {t : Token}
    (ht : t ∈ tokensOf text) : t.Writable := by
  rw [tokensOf, Lexed.stream, tokenize_eq_error_iff.mp hl] at ht
  obtain ⟨m, hm, rfl⟩ := List.mem_map.mp ht
  exact writable_of_mem_lex hm

/-! ## Errors about names -/

/-- An error behind one token is about the name that the token should have been. -/
theorem SyntaxError.exists_of_seen (h : e.seen = [.word w]) :
    ∃ (fault : NameFault) (p : Position), e = fault.error w p := by
  cases e with
  | invalidField name p =>
      cases h
      exact ⟨.field, p, rfl⟩
  | invalidFunction name p =>
      cases h
      exact ⟨.function, p, rfl⟩
  | invalidNamespace name p =>
      cases h
      exact ⟨.source, p, rfl⟩
  | lexical => cases h
  | unexpected => cases h
  | nestingTooDeep => cases h

/-- An error is found in front of its token, or behind it if it is about a name. -/
theorem SyntaxError.seen_eq_or (e : SyntaxError) : e.seen = [] ∨ ∃ w, e.seen = [.word w] := by
  cases e <;> simp [seen]

/-- How many tokens have been passed is told by the kind. -/
theorem SyntaxError.length_seen {e' : SyntaxError} (h : e.kind = e'.kind) :
    e.seen.length = e'.seen.length := by
  cases e <;> cases e' <;> first | rfl | cases h

/-! ## Beginnings of queries -/

/-- The tokens are the first ones of a text that is recognized. -/
def Begun (v : Vocabulary) (ts : List Token) : Prop :=
  ∃ text as, recognize v text = .ok as ∧ ts <+: tokensOf text

/-- What begins a beginning of a query begins the query. -/
theorem Begun.shorten (h : Begun v us) (hts : ts <+: us) : Begun v ts := by
  obtain ⟨text, as, hok, hus⟩ := h
  exact ⟨text, as, hok, hts.trans hus⟩

theorem Begun.take (h : Begun v ts) (n : Nat) : Begun v (ts.take n) :=
  h.shorten (List.take_prefix n ts)

/-- Behind the tokens stands a word that is refused as a name where the text ends behind it. -/
def RefusesName (v : Vocabulary) (us : List Token) (w : String) : Prop :=
  ∃ (text : String) (fault : NameFault) (p : Position),
    tokenize text = .ok (us ++ [.word w, .endOfText]) ∧
      recognize v text = .error (fault.error w p) ∧ TokenAt text us.length p

/-- What has been passed in front of a token that is refused is the beginning of a query. -/
theorem begun_of_passes {f g : String} (hv : v.Names f g) (h : recognize v text = .error e)
    (hk : e.kind ≠ .lexical) {d : Cursor} (hts : (Cursor.front text).Passes ts d)
    (hd : d.Shows v e) : Begun v ts := by
  obtain ⟨i, hi, text', as, hok, hsame⟩ := completion_of_refused hv h hk
  obtain rfl := hi.unique (hd.position_eq ▸ hts.tokenAt)
  refine ⟨text', as, hok, ?_⟩
  rw [hts.firstTokens_eq, firstTokens_eq_take] at hsame
  rw [← hsame]
  exact List.take_prefix _ _

/-- What is refused in a text is refused in the same place of every text that starts with the tokens
    that were known by then. -/
theorem refused_of_starts (h : recognize v text = .error e) (hk : e.kind ≠ .lexical) :
    ∃ ts d m, (Cursor.front text).Passes ts d ∧ d.Passes e.seen m ∧ d.Shows v e ∧
      ∀ text', ts ++ e.seen ++ [m.token] <+: tokensOf text' →
        ∃ e', recognize v text' = .error e' ∧ e'.kind = e.kind ∧
          TokenAt text' ts.length e'.position := by
  obtain ⟨ts, d, m, hts, hm, hd, halike⟩ := refused_alike h hk
  refine ⟨ts, d, m, hts, hm, hd, fun text' htext' => halike text' ?_⟩
  have htext : ts ++ e.seen ++ [m.token] <+: tokensOf text := by
    obtain ⟨more, hmore⟩ := tokensOf_of_passes (hts.trans hm)
    exact ⟨more, by rw [hmore, List.append_assoc]; rfl⟩
  have hlength : ts.length + e.seen.length + 1 = (ts ++ e.seen ++ [m.token]).length := by
    simp only [List.length_append, List.length_cons, List.length_nil]
  rw [hlength, firstTokens_of_starts htext, firstTokens_of_starts htext']

/-! ## Texts cut off in front of the characters that form no token -/

theorem lexical_of_kind (h : recognize v text = .error e) (hk : e.kind = .lexical) :
    ∃ l, e = .lexical l ∧ tokenize text = .error l := by
  obtain hl | ⟨_, d, -, hd⟩ := shows_of_recognize h
  · exact hl
  · cases e with
    | lexical l => exact hd.elim
    | _ => cases hk

/-- Where all characters form tokens no error is about characters. -/
theorem kind_ne_of_tokenize (h : recognize v text = .error e) (hts : tokenize text = .ok ts) :
    e.kind ≠ .lexical := by
  intro hk
  obtain ⟨l, -, hl⟩ := lexical_of_kind h hk
  cases hts.symm.trans hl

/-- In front of characters that form no token and are reported stands the beginning of a query, or a
    beginning with a word behind it that is refused as a name. -/
theorem begun_or_refusesName {f g : String} (hv : v.Names f g) {l : LexicalError}
    (h : recognize v text = .error (.lexical l)) (hl : tokenize text = .error l) :
    Begun v (tokensOf text) ∨
      ∃ us w, tokensOf text = us ++ [.word w] ∧ Begun v us ∧ RefusesName v us w := by
  obtain ⟨cut, hwrites⟩ := exists_writes fun t => writable_of_mem_tokensOf (t := t) hl
  have htokenize := tokenize_of_writes hwrites
  have hcut := tokensOf_of_tokenize htokenize
  cases hr : recognize v cut with
  | ok as => exact .inl ⟨cut, as, hr, by rw [hcut]; exact List.prefix_append _ _⟩
  | error e =>
      have hk := kind_ne_of_tokenize hr htokenize
      obtain ⟨ts, d, m, hts, hm, hd, halike⟩ := refused_of_starts hr hk
      have hbegun := begun_of_passes hv hr hk hts hd
      obtain ⟨more, hmore⟩ := tokensOf_of_passes (hts.trans hm)
      rw [hcut] at hmore
      rcases List.eq_nil_or_concat more with rfl | ⟨more, t, rfl⟩
      · -- All tokens were known when one was refused, so this is the last one or the end.
        obtain ⟨htokens, -⟩ := List.append_inj' hmore rfl
        rcases e.seen_eq_or with hseen | ⟨w, hseen⟩
        · rw [hseen, List.append_nil] at htokens
          exact .inl (htokens ▸ hbegun)
        · rw [hseen] at htokens
          obtain ⟨fault, p, rfl⟩ := SyntaxError.exists_of_seen hseen
          refine .inr ⟨ts, w, htokens, hbegun, cut, fault, p, ?_, hr, ?_⟩
          · rw [htokenize, htokens, List.append_assoc]
            rfl
          · exact fault.position_error w p ▸ hd.position_eq ▸ hts.tokenAt
      · -- The tokens that were known are tokens of the other text as well, which is refused there.
        have hprefix : ts ++ e.seen ++ [m.token] <+: tokensOf text := by
          rw [List.concat_eq_append, ← List.cons_append, ← List.append_assoc] at hmore
          obtain ⟨htokens, -⟩ := List.append_inj' hmore rfl
          exact ⟨more, by rw [htokens, List.append_assoc]; rfl⟩
        obtain ⟨e', he', hkind, -⟩ := halike text hprefix
        obtain rfl := Except.error.inj (h.symm.trans he')
        exact absurd hkind.symm hk

/-- All tokens but the last one in front of characters that form no token and are reported are the
    beginning of a query. -/
theorem begun_take {f g : String} (hv : v.Names f g) {l : LexicalError}
    (h : recognize v text = .error (.lexical l)) (hl : tokenize text = .error l) {n : Nat}
    (hn : n < (tokensOf text).length) : Begun v ((tokensOf text).take n) := by
  obtain hbegun | ⟨us, w, hts, hbegun, -⟩ := begun_or_refusesName hv h hl
  · exact hbegun.take n
  · rw [hts, List.length_append, List.length_singleton] at hn
    rw [hts, List.take_append_of_le_length (by omega)]
    exact hbegun.take n

/-! ## Wrong names -/

/-- A name that is wrong whatever follows is what is reported, if a token stands behind it. -/
theorem reported_of_refusesName {f g : String} (hv : v.Names f g) {t : Token} {more : List Token}
    (htext : tokensOf text = us ++ .word w :: t :: more) (hw : RefusesName v us w)
    (hwrong : ¬ Begun v (us ++ [.word w])) :
    ∃ (fault : NameFault) (p : Position),
      recognize v text = .error (fault.error w p) ∧ TokenAt text us.length p := by
  have hprefix : us ++ [.word w] <+: tokensOf text := ⟨t :: more, by rw [htext]; simp⟩
  cases hr : recognize v text with
  | ok as => exact absurd ⟨text, as, hr, hprefix⟩ hwrong
  | error e =>
      have hk : e.kind ≠ .lexical := by
        intro hk
        obtain ⟨l, rfl, hl⟩ := lexical_of_kind hr hk
        have hlt : (us ++ [Token.word w]).length < (tokensOf text).length := by
          rw [htext]
          simp
        have hbegun := begun_take hv hr hl hlt
        rw [← List.prefix_iff_eq_take.mp hprefix] at hbegun
        exact hwrong hbegun
      obtain ⟨ts, d, m, hts, hm, hd, halike⟩ := refused_of_starts hr hk
      obtain ⟨rest, hrest⟩ := tokensOf_of_passes (hts.trans hm)
      have hknown : ts ++ e.seen ++ [m.token] <+: tokensOf text :=
        ⟨rest, by rw [hrest, List.append_assoc]; rfl⟩
      have hpassed : ts ++ e.seen <+: tokensOf text := (List.prefix_append _ _).trans hknown
      -- What has been passed is the beginning of a query, so it ends in front of the wrong name.
      have hle : ts.length ≤ us.length := by
        refine Nat.le_of_not_lt fun hlt => hwrong ?_
        refine (begun_of_passes hv hr hk hts hd).shorten ?_
        refine List.prefix_of_prefix_length_le hprefix ((List.prefix_append _ _).trans hpassed) ?_
        rw [List.length_append]
        exact hlt
      obtain ⟨text', fault', p', htext', hr', hp'⟩ := hw
      rcases Nat.lt_or_ge us.length (ts.length + e.seen.length) with hlt | hge
      · -- The wrong name has been passed: it is the one that is refused.
        obtain hseen | ⟨w', hseen⟩ := e.seen_eq_or
        · rw [hseen, List.length_nil] at hlt
          omega
        rw [hseen] at hpassed hlt
        have hlength : ts.length = us.length := by
          rw [List.length_singleton] at hlt
          omega
        have heq : ts ++ [.word w'] = us ++ [.word w] := by
          refine (List.prefix_of_prefix_length_le hpassed hprefix ?_).eq_of_length ?_ <;>
            simp [hlength]
        obtain ⟨rfl, hword⟩ := List.append_inj heq hlength
        obtain rfl : w' = w := by simpa using hword
        obtain ⟨fault, p, rfl⟩ := SyntaxError.exists_of_seen hseen
        exact ⟨fault, p, rfl, fault.position_error w' p ▸ hd.position_eq ▸ hts.tokenAt⟩
      · -- Otherwise the text that ends behind the name is refused at the same place, which is not
        -- that of the name.
        have hcut : ts ++ e.seen ++ [m.token] <+: tokensOf text' := by
          refine (List.prefix_of_prefix_length_le hknown hprefix ?_).trans ?_
          · simp only [List.length_append, List.length_singleton]
            omega
          · exact ⟨[.endOfText], by rw [tokensOf_of_tokenize htext', List.append_assoc]; rfl⟩
        obtain ⟨e', he', hkind, hplace⟩ := halike text' hcut
        obtain rfl := Except.error.inj (hr'.symm.trans he')
        rw [fault'.position_error] at hplace
        have hindex := hp'.unique hplace
        have hseen := SyntaxError.length_seen hkind
        rw [fault'.seen_error, List.length_singleton] at hseen
        omega

/-! ## The standard vocabulary -/

/-- A lexical error that is reported hides no mistake in front of the last token. The tokens in
    front of the characters that form none are the beginning of a query, all of them unless the last
    one is a word that is refused as a name even where the text ends behind it. A name that is wrong
    whatever follows is what is reported, if a token stands between it and the characters that form
    none. -/
theorem lexical_error_hides_last_name :
    (∀ (text : String) (l : LexicalError), recognize .standard text = .error (.lexical l) →
      tokenize text = .error l ∧
      (∀ n < (tokensOf text).length, Begun .standard ((tokensOf text).take n)) ∧
      (Begun .standard (tokensOf text) ∨
        ∃ us w, tokensOf text = us ++ [.word w] ∧ RefusesName .standard us w)) ∧
    ∀ (text : String) (us : List Token) (w : String) (t : Token) (more : List Token),
      tokensOf text = us ++ .word w :: t :: more → RefusesName .standard us w →
        ¬ Begun .standard (us ++ [.word w]) →
          ∃ (fault : NameFault) (p : Position),
            recognize .standard text = .error (fault.error w p) ∧ TokenAt text us.length p := by
  refine ⟨fun text l h => ?_, fun text us w t more htext hw hwrong =>
    reported_of_refusesName Vocabulary.names_standard htext hw hwrong⟩
  obtain ⟨_, heq, hl⟩ := lexical_of_kind h rfl
  obtain rfl := SyntaxError.lexical.inj heq
  refine ⟨hl, fun n hn => begun_take Vocabulary.names_standard h hl hn, ?_⟩
  obtain hbegun | ⟨us, w, hts, -, hw⟩ := begun_or_refusesName Vocabulary.names_standard h hl
  · exact .inl hbegun
  · exact .inr ⟨us, w, hts, hw⟩

/-- Behind the keyword that selects stands a name of a field or of a function. -/
theorem Grammar.DerivesSelector.starts {selector : Selector} (h : DerivesSelector v ts selector) :
    ∃ w more, ts = .word w :: more ∧ (v.isField w = true ∨ isFunctionName w = true) := by
  cases h with
  | simple hf => exact ⟨_, _, rfl, .inl hf⟩
  | compound hfields =>
      cases hfields with
      | one hf =>
          cases hf with
          | word hf => exact ⟨_, _, rfl, .inl hf⟩
      | more hf _ =>
          cases hf with
          | word hf => exact ⟨_, _, rfl, .inl hf⟩
  | function _ hname _ => exact ⟨_, _, rfl, .inr hname⟩

/-- Behind the keyword of a selection a query has the name of a field or of a function. -/
theorem Begun.name_behind_select {k : String} (hk : v.keyword? k = some .select)
    (h : Begun v (.word k :: .word w :: ts)) :
    v.isField w = true ∨ isFunctionName w = true := by
  obtain ⟨text, as, hok, more, hmore⟩ := h
  obtain ⟨us, n, d, htokenize, hquery, -⟩ := recognize_eq_ok_iff.mp hok
  rw [tokensOf_of_tokenize htokenize] at hmore
  cases hquery with
  | select hspelt hselector =>
      obtain ⟨u, rest, rfl, hu⟩ := hselector.starts
      obtain ⟨-, hword, -⟩ := by simpa using hmore
      exact hword ▸ hu
  | delete hspelt =>
      obtain ⟨u, rfl, hu⟩ := hspelt
      obtain ⟨rfl, -⟩ := by simpa using hmore
      cases hk.symm.trans hu

/-- No query begins with the selection of a number. -/
theorem not_begun_number : ¬ Begun .standard [.word "select", .word "1"] := by
  intro h
  have hname := h.name_behind_select (by decide)
  revert hname
  decide

/-- A word that is no field, and behind it a character that forms no token. -/
def hiddenText : String :=
  "select 1 @"

/-- The character is reported, although no query starts with the tokens in front of it. -/
theorem wrong_name_hidden :
    recognize .standard hiddenText = .error (.lexical (.unexpectedChar '@' ⟨9, 1, 10⟩)) ∧
      tokensOf hiddenText = [.word "select", .word "1"] ∧
      ¬ Begun .standard [.word "select", .word "1"] := by
  exact ⟨by decide +kernel, by decide +kernel, not_begun_number⟩

/-- What stands in front of the word is still the beginning of a query, and with a comma behind the
    word it is the word that is reported. -/
theorem wrong_name_shown_by_comma :
    recognize .standard hiddenText = .error (.lexical (.unexpectedChar '@' ⟨9, 1, 10⟩)) ∧
      Begun .standard [.word "select"] ∧
      ∃ (fault : NameFault) (p : Position),
        recognize .standard "select 1, @" = .error (fault.error "1" p) ∧
          TokenAt "select 1, @" 1 p := by
  have htokens : tokensOf hiddenText = [.word "select", .word "1"] := by decide +kernel
  have herror : recognize .standard hiddenText =
      .error (.lexical (.unexpectedChar '@' ⟨9, 1, 10⟩)) := by decide +kernel
  have hrefuses : RefusesName .standard [.word "select"] "1" :=
    ⟨"select 1", .field, ⟨7, 1, 8⟩, by decide +kernel, by decide +kernel, by decide +kernel⟩
  obtain ⟨hhidden, hshown⟩ := lexical_error_hides_last_name
  obtain ⟨-, hbegun, -⟩ := hhidden hiddenText _ herror
  rw [htokens] at hbegun
  exact ⟨herror, hbegun 1 (by decide), hshown "select 1, @" [.word "select"] "1" .comma []
    (by decide +kernel) hrefuses not_begun_number⟩

end RecordQuery
