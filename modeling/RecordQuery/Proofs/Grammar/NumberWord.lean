/-
  RecordQuery.Proofs.Grammar.NumberWord

  The words of a text that should be numerals. They stand behind an operator that compares with
  integers, or behind the keyword that bounds the number of results; the grammar takes any word
  there that is no keyword. Listing them needs the tokens only, and gives the words of the draft
  that the tokens derive: groups, negations and chains of operands keep the order of the text.
-/

import RecordQuery.Proofs.Compilation
import RecordQuery.Proofs.Query.Number

namespace RecordQuery

/-! ## The words of a text -/

/-- A word and an operator that compares with integers at the front of a text make a bound of the
    word behind them. -/
def boundAt? : List Token → Option NumberWord
  | .word field :: t :: .word w :: _ => t.rangeOp?.map fun op => .bound field op w
  | _ => none

/-- The keyword of limits at the front of a text makes a limit of the word behind it. -/
def limitAt? (v : Vocabulary) : List Token → Option NumberWord
  | .word k :: .word w :: _ => if v.keyword? k = some .limit then some (.limit w) else none
  | _ => none

/-- The words of a text that should be numerals, from left to right. -/
def numberWords (v : Vocabulary) : List Token → List NumberWord
  | [] => []
  | t :: ts => (boundAt? (t :: ts)).toList ++ (limitAt? v (t :: ts)).toList ++ numberWords v ts

/-! ## Words by derivation -/

/-- Operators that compare with texts are neither words nor operators that compare with integers. -/
theorem Token.ne_word_of_valueOp? {t : Token} {op : ValueOp} (h : t.valueOp? = some op) :
    t.rangeOp? = none ∧ ∀ w, t ≠ .word w := by
  cases t <;> simp_all [valueOp?, rangeOp?]

theorem Token.ne_word_of_rangeOp? {t : Token} {op : RangeOp} (h : t.rangeOp? = some op) :
    ∀ w, t ≠ .word w := by
  rintro w rfl
  cases h

variable {v : Vocabulary}

/-- A token other than a word takes no part in a bound or a limit by standing in front. -/
theorem numberWords_symbol {t : Token} (h : ∀ w, t ≠ .word w) (us : List Token) :
    numberWords v (t :: us) = numberWords v us := by
  cases t with
  | word w => exact absurd rfl (h w)
  | _ => rfl

/-- A word in front of something other than an operator is not compared with anything. -/
theorem numberWords_word {w : String} {us : List Token} (hw : v.keyword? w ≠ some .limit)
    (hus : ∀ u ∈ us.head?, u.rangeOp? = none) :
    numberWords v (.word w :: us) = numberWords v us := by
  cases us with
  | nil => rfl
  | cons u us =>
      have hu : u.rangeOp? = none := hus u rfl
      have hbound : boundAt? (.word w :: u :: us) = none := by
        cases us with
        | nil => rfl
        | cons u' us => cases u' <;> simp [boundAt?, hu]
      have hlimit : limitAt? v (.word w :: u :: us) = none := by
        cases u <;> simp [limitAt?, hw]
      simp [numberWords, hbound, hlimit]

/-- A word, an operator that compares with integers and another word make a bound. -/
theorem numberWords_bound {f w : String} {t : Token} {op : RangeOp} (h : t.rangeOp? = some op)
    (us : List Token) :
    numberWords v (.word f :: t :: .word w :: us) =
      .bound f op w :: numberWords v (.word w :: us) := by
  have ht := Token.ne_word_of_rangeOp? h
  have hlimit : limitAt? v (.word f :: t :: .word w :: us) = none := by
    cases t with
    | word w => exact absurd rfl (ht w)
    | _ => rfl
  rw [numberWords, numberWords_symbol ht, hlimit, boundAt?, h]
  rfl

/-- The keyword of limits makes a limit of the word behind it. -/
theorem numberWords_limit {k w : String} (h : v.keyword? k = some .limit) {us : List Token} :
    numberWords v (.word k :: .word w :: us) = .limit w :: numberWords v (.word w :: us) := by
  have hbound : boundAt? (.word k :: .word w :: us) = none := by
    cases us with
    | nil => rfl
    | cons u us => cases u <;> rfl
  rw [numberWords, hbound, limitAt?, if_pos h]
  rfl

/-- In front of tokens that do not start with an operator, `ts` adds the words `ws`, and does not
    start with one itself. -/
def Lists (v : Vocabulary) (ts : List Token) (ws : List NumberWord) : Prop :=
  ∀ us : List Token, (∀ u ∈ us.head?, u.rangeOp? = none) →
    (∀ t ∈ (ts ++ us).head?, t.rangeOp? = none) ∧
      numberWords v (ts ++ us) = ws ++ numberWords v us

namespace Lists

variable {ts us : List Token} {ws xs : List NumberWord}

theorem nil : Lists v [] [] :=
  fun _ h => ⟨h, rfl⟩

/-- The words of two runs of tokens are those of the first and then those of the second. -/
theorem append (h : Lists v ts ws) (h' : Lists v us xs) : Lists v (ts ++ us) (ws ++ xs) := by
  intro vs hvs
  obtain ⟨hstart', heq'⟩ := h' vs hvs
  obtain ⟨hstart, heq⟩ := h _ hstart'
  rw [List.append_assoc, heq, heq', List.append_assoc]
  exact ⟨hstart, rfl⟩

theorem cons {t : Token} (h : Lists v [t] []) (h' : Lists v us xs) : Lists v (t :: us) xs :=
  h.append h'

/-- A sign that compares no integers adds no word. -/
theorem symbol {t : Token} (hop : t.rangeOp? = none) (hword : ∀ w, t ≠ .word w) :
    Lists v [t] [] := by
  intro us _
  refine ⟨fun u hu => ?_, numberWords_symbol hword us⟩
  obtain rfl := Option.some.inj hu
  exact hop

theorem word {w : String} (hw : v.keyword? w ≠ some .limit) : Lists v [.word w] [] := by
  intro us hus
  refine ⟨fun u hu => ?_, numberWords_word hw hus⟩
  obtain rfl := Option.some.inj hu
  rfl

/-- A keyword other than that of limits adds no word. -/
theorem keyword {t : Token} {k : Keyword} (h : Grammar.Spells v t k) (hk : k ≠ .limit) :
    Lists v [t] [] := by
  obtain ⟨w, rfl, hw⟩ := h
  apply word
  rw [hw]
  exact fun h => hk (Option.some.inj h)

theorem name {w : String} (h : v.keyword? w = none) : Lists v [.word w] [] := by
  apply word
  rw [h]
  simp

theorem field {f : String} (h : v.isField f = true) : Lists v [.word f] [] :=
  name (v.keyword?_of_isField h)

end Lists

namespace Grammar

/-- A literal is no numeral, not even as a word: no such operator stands in front of it. -/
theorem lists_literal {t : Token} {text : String} (h : Literal v t text) : Lists v [t] [] := by
  cases h with
  | quoted => exact .symbol rfl (by simp)
  | bare h => exact .name h

/-- A comparison has a word that should be an integer exactly if it is a bound. -/
theorem lists_comparison {ts : List Token} {c : Condition} (h : Comparison v ts c) :
    Lists v ts c.numberWords := by
  cases h with
  | value hf ht hl =>
      obtain ⟨hop, hword⟩ := Token.ne_word_of_valueOp? ht
      exact (Lists.field hf).cons ((Lists.symbol hop hword).cons (lists_literal hl))
  | range hf ht hw =>
      -- The operator makes a bound of the word behind it, which ends the comparison.
      intro us hus
      have hend := (Lists.name hw us hus).2
      refine ⟨fun u hu => ?_, (numberWords_bound ht us).trans (congrArg _ hend)⟩
      obtain rfl := Option.some.inj hu
      rfl
  | index hf ht hl =>
      exact (Lists.field hf).cons ((Lists.keyword ht (by decide)).cons (lists_literal hl))

/-- The words of a phrase that should be integers. -/
def Phrase.numberWords : Phrase → List NumberWord
  | .chain _ c | .operand _ c | .unary c | .atom c => c.numberWords
  | .operands _ cs => cs.flatMap Condition.numberWords

end Grammar

/-- Chaining operands keeps their words in order. -/
theorem Condition.numberWords_foldl (op : BoolOp) (first : Condition) (operands : List Condition) :
    (operands.foldl (compound op) first).numberWords =
      first.numberWords ++ operands.flatMap numberWords := by
  induction operands generalizing first with
  | nil => simp
  | cons c cs ih => simp [ih, numberWords]

namespace Grammar

/-- The words of a phrase are those of the criteria that it derives, from left to right. -/
theorem lists_of_derives {n : Nat} {ts : List Token} {p : Phrase} (h : Derives v n ts p) :
    Lists v ts p.numberWords := by
  induction h with
  | chain _ _ ihfirst ihmore =>
      rw [Phrase.numberWords, Condition.numberWords_foldl]
      exact ihfirst.append ihmore
  | noOperands => exact .nil
  | @operands _ _ _ _ _ op _ _ hk _ _ ihright ihmore =>
      have hkey := Lists.keyword hk (by cases op <;> decide)
      rw [Phrase.numberWords, List.flatMap_cons]
      exact hkey.cons (ihright.append ihmore)
  | conjunction _ ih => exact ih
  | unary _ ih => exact ih
  | negation hk _ ih => exact (Lists.keyword hk (by decide)).cons ih
  | atom _ ih => exact ih
  | @group _ _ c _ ih =>
      have hopen : Lists v [.openParen] [] := .symbol rfl (by simp)
      have hclose : Lists v [.closeParen] [] := .symbol rfl (by simp)
      have hgroup := hopen.cons (ih.append hclose)
      rw [List.append_nil] at hgroup
      exact hgroup
  | comparison h => exact lists_comparison h

/-- Items that write no numbers make lists that write none. -/
theorem lists_listed {α : Type} {item : List Token → α → Prop} {ts : List Token} {as : List α}
    (hitem : ∀ {us a}, item us a → Lists v us []) (h : Listed item ts as) : Lists v ts [] := by
  induction h with
  | one ha => exact hitem ha
  | more ha _ ih =>
      have hcomma : Lists v [.comma] [] := .symbol rfl (by simp)
      exact (hitem ha).append (hcomma.cons ih)

theorem lists_selector {ts : List Token} {s : Selector} (h : DerivesSelector v ts s) :
    Lists v ts [] := by
  cases h with
  | simple hf => exact .field hf
  | compound hl => exact lists_listed (fun ha => by cases ha with | word hf => exact .field hf) hl
  | function hk _ hf =>
      have hopen : Lists v [.openParen] [] := .symbol rfl (by simp)
      have hclose : Lists v [.closeParen] [] := .symbol rfl (by simp)
      exact (Lists.name hk).cons (hopen.cons ((Lists.field hf).cons hclose))

theorem lists_orderItem {ts : List Token} {spec : OrderSpec} (h : OrderItem v ts spec) :
    Lists v ts [] := by
  cases h with
  | plain hf => exact .field hf
  | ascending hf hk => exact (Lists.field hf).cons (.keyword hk (by decide))
  | descending hf hk => exact (Lists.field hf).cons (.keyword hk (by decide))

theorem lists_keywords {ks : List Token} {keywords : List Keyword}
    (h : List.Forall₂ (Spells v) ks keywords) (hne : .limit ∉ keywords) : Lists v ks [] := by
  induction h with
  | nil => exact .nil
  | cons hk _ ih =>
      rw [List.mem_cons, not_or] at hne
      exact (Lists.keyword hk (Ne.symm hne.1)).cons (ih hne.2)

/-- A clause without numbers in its body adds none by its keywords. -/
theorem lists_clause {α : Type} {keywords : List Keyword} {body : List Token → α → Prop}
    {ts : List Token} {part : Option α} (hne : .limit ∉ keywords)
    (hbody : ∀ {us a}, body us a → Lists v us []) (h : Clause v keywords body ts part) :
    Lists v ts [] := by
  cases h with
  | absent => exact .nil
  | present hk ha => exact (lists_keywords hk hne).append (hbody ha)

theorem lists_namespaceName {ts : List Token} {name : String} (h : NamespaceName v ts name) :
    Lists v ts [] := by
  cases h with
  | word h => exact .name (v.keyword?_of_isNamespace h)

theorem lists_filter {n : Nat} {ts : List Token} {filter : Option Condition}
    (h : Filter v n ts filter) : Lists v ts (filter.toList.flatMap Condition.numberWords) := by
  cases h with
  | absent => exact .nil
  | present hk hderives =>
      rw [Option.toList_some, List.flatMap_singleton]
      exact (Lists.keyword hk (by decide)).cons (lists_of_derives hderives)

/-- The clause of a limit adds its word. -/
theorem lists_limit {ts : List Token} {limit : Option String}
    (h : Clause v [.limit] (LimitWord v) ts limit) :
    Lists v ts (limit.map NumberWord.limit).toList := by
  cases h with
  | absent => exact .nil
  | present hk hlimit =>
      cases hlimit with
      | word hw =>
          cases hk with
          | cons hk hnil =>
              cases hnil
              obtain ⟨k, rfl, hk⟩ := hk
              -- The keyword makes a limit of the word, which is the last one.
              intro us hus
              have hend := (Lists.name hw us hus).2
              refine ⟨fun u hu => ?_, (numberWords_limit hk).trans (congrArg _ hend)⟩
              obtain rfl := Option.some.inj hu
              rfl

/-- The words of a query are those of its criteria and then that of its limit. -/
theorem lists_query {n : Nat} {ts : List Token} {d : Draft} (h : DerivesQuery v n ts d) :
    Lists v ts d.numberWords := by
  cases h with
  | select hk hs hf hw ho hl =>
      have hselector := (Lists.keyword hk (by decide)).cons (lists_selector hs)
      have hsource := hselector.append (lists_clause (by decide) lists_namespaceName hf)
      have hfilter := hsource.append (lists_filter hw)
      have horder := hfilter.append
        (lists_clause (by decide) (fun h => lists_listed lists_orderItem h) ho)
      have hlimit := horder.append (lists_limit hl)
      simpa [Draft.numberWords] using hlimit
  | delete hk hf hw hl =>
      have hsource := (Lists.keyword hk (by decide)).cons
        (lists_clause (by decide) lists_namespaceName hf)
      have hfilter := hsource.append (lists_filter hw)
      have hlimit := hfilter.append (lists_limit hl)
      simpa [Draft.numberWords] using hlimit

/-- The words that should be numerals are those of the draft that a text derives. -/
theorem numberWords_of_derives {n : Nat} {ts : List Token} {d : Draft}
    (h : DerivesQuery v n ts d) : numberWords v ts = d.numberWords := by
  obtain ⟨-, heq⟩ := lists_query h [] (by simp)
  rw [List.append_nil] at heq
  rw [heq, numberWords, List.append_nil]

end Grammar

/-! ## Compiling numbers -/

/-- A recognized text compiles if every word that should be a numeral is one, and its query then
    holds the numbers of these words, one for one. If not, the first of them from the left that is
    no numeral is reported, for the reason for which reading it fails. -/
theorem compileWith_by_numberWords (v : Vocabulary) (text : String) (actions : List Action)
    (h : recognize v text = .ok actions) :
    ∃ ts, tokenize text = .ok (ts ++ [.endOfText]) ∧
      ((∃ q, compileWith v text = .ok q) ↔ ∀ w ∈ numberWords v ts, ∃ n, w.Writes n) ∧
      (∀ q, compileWith v text = .ok q →
        List.Forall₂ NumberWord.Writes (numberWords v ts) q.numbers) ∧
      ∀ e, compileWith v text = .error e ↔
        ∃ before w after fault, numberWords v ts = before ++ w :: after ∧
          (∀ u ∈ before, ∃ n, u.Writes n) ∧ w.fault? = some fault ∧ e = .badValue fault := by
  obtain ⟨ts, n, d, hts, hd, hn, -⟩ := recognize_eq_ok_iff.mp h
  have hcompile := compileWith_of_derives hts hd hn
  refine ⟨ts, hts, ?_⟩
  rw [Grammar.numberWords_of_derives hd, hcompile]
  refine ⟨?_, fun q hq => ?_, fun e => ?_⟩
  · simp only [mapError_eq_ok]
    exact d.exists_read_iff
  · exact Draft.writes_of_read (mapError_eq_ok.mp hq)
  · rw [mapError_eq_error]
    constructor
    · rintro ⟨fault, hread, rfl⟩
      obtain ⟨before, w, after, hwords, hbefore, hw⟩ := Draft.read_eq_error_iff.mp hread
      exact ⟨before, w, after, fault, hwords, hbefore, hw, rfl⟩
    · rintro ⟨before, w, after, fault, hwords, hbefore, hw, rfl⟩
      exact ⟨fault, Draft.read_eq_error_iff.mpr ⟨before, w, after, hwords, hbefore, hw⟩, rfl⟩

/-- A text with four words that should be numerals, of which only the first is one. -/
def badNumbersText : String :=
  "select * where not (a >= -9223372036854775808 and b < x1) or c > 1e3 limit -5"

/-- The first of the bad words is reported, neither the last one nor the one that ends up deepest
    in the criteria. -/
theorem compileWith_badNumbersText :
    (∃ actions, recognize .standard badNumbersText = .ok actions) ∧
      compileWith .standard badNumbersText =
        .error (.badValue (.invalidRangeValue "b" "x1" .invalidDigit)) := by
  have hsome : (recognize .standard badNumbersText).toOption.isSome = true := by decide +kernel
  obtain ⟨actions, h⟩ : ∃ actions, recognize .standard badNumbersText = .ok actions := by
    cases hr : recognize .standard badNumbersText with
    | error e => simp [hr, Except.toOption] at hsome
    | ok actions => exact ⟨actions, rfl⟩
  obtain ⟨ts, hts, -, -, herror⟩ := compileWith_by_numberWords _ _ _ h
  have hwords : (tokenize badNumbersText).toOption.map
      (fun ts => numberWords .standard ts.dropLast) =
        some [.bound "a" .greaterEqual "-9223372036854775808", .bound "b" .lessThan "x1",
          .bound "c" .greaterThan "1e3", .limit "-5"] := by
    decide +kernel
  rw [hts] at hwords
  simp only [Except.toOption, Option.map_some, List.dropLast_concat, Option.some.injEq] at hwords
  refine ⟨⟨actions, h⟩, (herror _).mpr ⟨[_], _, _, _, hwords, ?_, by decide +kernel, rfl⟩⟩
  intro u hu
  obtain rfl := List.mem_singleton.mp hu
  exact NumberWord.fault?_eq_none_iff.mp (by decide +kernel)

end RecordQuery
