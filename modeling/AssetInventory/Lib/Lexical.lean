import Mathlib.Data.List.Basic
import Mathlib.Data.Nat.Notation

/-!
# Texts with quoted literals

The lexical structure of a query language: words, single symbols, and literals in double quotes.  A literal
ends at the first double quote that is not escaped; a backslash escapes a backslash and a double quote, and
what it makes of any other character is up to the language.

* `lex`: the tokens of a text.
* `quote`: a literal with its value escaped, and `lexFrom_quote`: it is read as that value.
* `Plain`: the values that may stand between double quotes as they are, and `plain_of_lexFrom`: no others
  may.
* `Query`: a query with parameters between fixed texts.  `lex_render_iff`: it is read as the fixed texts with
  one literal for each parameter exactly when the parameters that are not escaped are plain.
-/

namespace Lexical

/-! ## The lexer -/

/-- What a backslash makes of the character behind it; `none` if the backslash stands for itself. -/
structure Escapes where
  unescape : Char → Option Char
  unescape_backslash : unescape '\\' = some '\\'
  unescape_quote : unescape '"' = some '"'

/-- The tokens. -/
inductive Token where
  | word (text : String)
  | symbol (c : Char)
  | literal (value : String)
  deriving DecidableEq

/-- Where the lexer is: between tokens, in a word, in a literal, or behind a backslash in a literal. -/
inductive Mode where
  | between
  | word (read : List Char)
  | text (read : List Char)
  | escape (read : List Char)

def isWordChar (c : Char) : Bool := c.isAlphanum || c == '_'

/-- A character outside of words and literals. -/
def start (c : Char) : List Token × Mode :=
  if c = '"' then ([], .text [])
  else if isWordChar c then ([], .word [c])
  else if c.isWhitespace then ([], .between)
  else ([.symbol c], .between)

/-- The token that ends when a new one starts. -/
def Mode.flush : Mode → List Token
  | .word read => [.word (String.ofList read)]
  | _ => []

variable (e : Escapes)

/-- What a backslash and the character behind it stand for. -/
def unescaped (c : Char) : List Char :=
  match e.unescape c with
  | some d => [d]
  | none => ['\\', c]

/-- A character. -/
def step : Mode → Char → List Token × Mode
  | .between, c => start c
  | .word read, c =>
    if isWordChar c then ([], .word (read ++ [c]))
    else (.word (String.ofList read) :: (start c).1, (start c).2)
  | .text read, c =>
    if c = '"' then ([.literal (String.ofList read)], .between)
    else if c = '\\' then ([], .escape read)
    else ([], .text (read ++ [c]))
  | .escape read, c => ([], .text (read ++ unescaped e c))

/-- The tokens that end in a text, and where the lexer is behind it. -/
def run : Mode → List Char → List Token × Mode
  | m, [] => ([], m)
  | m, c :: cs => ((step e m c).1 ++ (run (step e m c).2 cs).1, (run (step e m c).2 cs).2)

/-- The end of the text; a literal must have ended before it. -/
def finish : Mode → Option (List Token)
  | .between => some []
  | .word read => some [.word (String.ofList read)]
  | .text _ => none
  | .escape _ => none

/-- The tokens of a text from some point on. -/
def lexFrom (m : Mode) (cs : List Char) : Option (List Token) :=
  (finish (run e m cs).2).map ((run e m cs).1 ++ ·)

/-- **The tokens of a text.** -/
def lex (s : String) : Option (List Token) := lexFrom e .between s.toList

variable {e}

theorem run_append (m : Mode) (cs ds : List Char) : run e m (cs ++ ds) =
      ((run e m cs).1 ++ (run e (run e m cs).2 ds).1, (run e (run e m cs).2 ds).2) := by
  induction cs generalizing m with
  | nil => rfl
  | cons c cs ih =>
    rw [List.cons_append]
    simp only [run, ih, List.append_assoc]

theorem lexFrom_append (m : Mode) (cs ds : List Char) :
    lexFrom e m (cs ++ ds) = (lexFrom e (run e m cs).2 ds).map ((run e m cs).1 ++ ·) := by
  rw [lexFrom, lexFrom, run_append, Option.map_map]
  refine congrArg (fun f => Option.map f _) (funext fun ts => ?_)
  exact List.append_assoc _ _ _

theorem lexFrom_cons (m : Mode) (c : Char) (cs : List Char) :
    lexFrom e m (c :: cs) = (lexFrom e (step e m c).2 cs).map ((step e m c).1 ++ ·) := by
  have h := lexFrom_append (e := e) m [c] cs
  simpa [run] using h

theorem map_append_eq_some {ts us : List Token} {o : Option (List Token)} :
    o.map (ts ++ ·) = some (ts ++ us) ↔ o = some us := by
  cases o with
  | none => simp
  | some vs => simp

/-! ## Fixed texts -/

/-- A text without quotes and backslashes. -/
def Clean (cs : List Char) : Prop := ∀ c ∈ cs, c ≠ '"' ∧ c ≠ '\\'

instance (cs : List Char) : Decidable (Clean cs) := List.decidableBAll _ cs

theorem clean_literal (cs : List Char) (h : Clean cs) : Clean (String.ofList cs).toList := by
  rwa [String.toList_ofList]

theorem clean_append {s t : String} (hs : Clean s.toList) (ht : Clean t.toList) :
    Clean (s ++ t).toList := by
  rw [String.toList_append]
  exact fun c hc => (List.mem_append.mp hc).elim (hs c) (ht c)

/-- The lexer is not in a literal. -/
def Mode.Outside : Mode → Prop
  | .between => True
  | .word _ => True
  | _ => False

theorem outside_start {c : Char} (hc : c ≠ '"') : (start c).2.Outside := by
  unfold start
  rw [if_neg hc]
  split
  · trivial
  · split <;> trivial

theorem outside_step {m : Mode} {c : Char} (hm : m.Outside) (hc : c ≠ '"') :
    (step e m c).2.Outside := by
  cases m with
  | between => exact outside_start hc
  | word read =>
    simp only [step]
    split
    · trivial
    · exact outside_start hc
  | text read => exact hm.elim
  | escape read => exact hm.elim

variable {cs s x rest : List Char}

theorem outside_run {m : Mode} (hm : m.Outside) (hcs : Clean cs) : (run e m cs).2.Outside := by
  induction cs generalizing m with
  | nil => exact hm
  | cons c cs ih =>
    exact ih (outside_step hm (hcs c List.mem_cons_self).1) fun d hd =>
      hcs d (List.mem_cons_of_mem _ hd)

theorem finish_of_outside {m : Mode} (hm : m.Outside) : finish m = some m.flush := by
  cases m with
  | between => rfl
  | word read => rfl
  | text read => exact hm.elim
  | escape read => exact hm.elim

theorem lexFrom_opening {m : Mode} (hm : m.Outside) (cs : List Char) :
    lexFrom e m ('"' :: cs) = (lexFrom e (.text []) cs).map (m.flush ++ ·) := by
  rw [lexFrom_cons]
  cases m with
  | between => rfl
  | word read => rfl
  | text read => exact hm.elim
  | escape read => exact hm.elim

variable (e)

/-- The tokens of a fixed text. -/
def words (text : String) : List Token :=
  (run e .between text.toList).1 ++ (run e .between text.toList).2.flush

variable {e} {text head : String}

theorem lexFrom_text (h : Clean text.toList) :
    lexFrom e .between text.toList = some (words e text) := by
  rw [lexFrom, finish_of_outside (outside_run (m := .between) trivial h)]
  rfl

theorem lexFrom_text_opening (h : Clean text.toList) (cs : List Char) :
    lexFrom e .between (text.toList ++ '"' :: cs) =
      (lexFrom e (.text []) cs).map (words e text ++ ·) := by
  rw [lexFrom_append, lexFrom_opening (outside_run (m := .between) trivial h), Option.map_map]
  refine congrArg (fun f => Option.map f _) (funext fun ts => ?_)
  exact (List.append_assoc _ _ _).symm

/-! ## Literals -/

theorem step_text_of_ne {c : Char} (hquote : c ≠ '"') (hback : c ≠ '\\') (v : List Char) :
    step e (.text v) c = ([], .text (v ++ [c])) := by
  simp only [step, if_neg hquote, if_neg hback]

theorem lexFrom_text_closing (v cs : List Char) : lexFrom e (.text v) ('"' :: cs) =
      (lexFrom e .between cs).map (.literal (String.ofList v) :: ·) := lexFrom_cons _ _ _

theorem lexFrom_text_cons {c : Char} (hquote : c ≠ '"') (hback : c ≠ '\\') (v cs : List Char) :
    lexFrom e (.text v) (c :: cs) = lexFrom e (.text (v ++ [c])) cs := by
  rw [lexFrom_cons, step_text_of_ne hquote hback]
  exact Option.map_id'

theorem lexFrom_text_escape (c : Char) (v cs : List Char) :
    lexFrom e (.text v) ('\\' :: c :: cs) = lexFrom e (.text (v ++ unescaped e c)) cs := by
  have hback : step e (.text v) '\\' = ([], .escape v) := rfl
  have hnext : step e (.escape v) c = ([], .text (v ++ unescaped e c)) := rfl
  rw [lexFrom_cons, hback, lexFrom_cons, hnext, Option.map_map]
  exact Option.map_id'

/-- A character of a literal, escaped. -/
def quoteChar (c : Char) : List Char :=
  if c = '\\' then ['\\', '\\'] else if c = '"' then ['\\', '"'] else [c]

/-- A value between double quotes, escaped. -/
def quote (s : String) : List Char := '"' :: (s.toList.flatMap quoteChar ++ ['"'])

theorem lexFrom_quoteChar (c : Char) (v cs : List Char) :
    lexFrom e (.text v) (quoteChar c ++ cs) = lexFrom e (.text (v ++ [c])) cs := by
  by_cases hback : c = '\\'
  · subst hback
    have hun : unescaped e '\\' = ['\\'] := by rw [unescaped, e.unescape_backslash]
    have h := lexFrom_text_escape (e := e) '\\' v cs
    rwa [hun] at h
  · by_cases hquote : c = '"'
    · subst hquote
      have hun : unescaped e '"' = ['"'] := by rw [unescaped, e.unescape_quote]
      have h := lexFrom_text_escape (e := e) '"' v cs
      rwa [hun] at h
    · rw [quoteChar, if_neg hback, if_neg hquote]
      exact lexFrom_text_cons hquote hback v cs

theorem lexFrom_escaped (s v cs : List Char) :
    lexFrom e (.text v) (s.flatMap quoteChar ++ '"' :: cs) =
      (lexFrom e .between cs).map (.literal (String.ofList (v ++ s)) :: ·) := by
  induction s generalizing v with
  | nil =>
    rw [List.append_nil]
    exact lexFrom_text_closing v cs
  | cons c s ih =>
    rw [List.flatMap_cons, List.append_assoc, lexFrom_quoteChar, ih, List.append_assoc]
    rfl

variable (e)

/-- The values that may stand between double quotes as they are: without double quotes, and every backslash
stands for itself. -/
def Plain : List Char → Prop
  | [] => True
  | ['\\'] => False
  | '\\' :: c :: cs => e.unescape c = none ∧ Plain cs
  | c :: cs => c ≠ '"' ∧ Plain cs

variable {e}

theorem plain_cons {c : Char} (hback : c ≠ '\\') (s : List Char) :
    Plain e (c :: s) ↔ c ≠ '"' ∧ Plain e s := by
  rw [Plain]
  · exact fun hc _ => hback hc
  · exact fun _ _ hc _ => hback hc

theorem lexFrom_plain (h : Plain e s) (v cs : List Char) : lexFrom e (.text v) (s ++ '"' :: cs) =
      (lexFrom e .between cs).map (.literal (String.ofList (v ++ s)) :: ·) := by
  induction s using Plain.induct generalizing v with
  | case1 =>
    rw [List.append_nil]
    exact lexFrom_text_closing v cs
  | case2 => exact h.elim
  | case3 c s ih =>
    have hun : unescaped e c = ['\\', c] := by rw [unescaped, h.1]
    rw [List.cons_append, List.cons_append, lexFrom_text_escape, ih h.2, hun, List.append_assoc]
    rfl
  | case4 c s hone htwo ih =>
    have hback : c ≠ '\\' := by
      rintro rfl
      cases s with
      | nil => exact hone rfl rfl
      | cons d s => exact htwo d s rfl rfl
    have h := (plain_cons hback s).mp h
    rw [List.cons_append, lexFrom_text_cons h.1 hback, ih h.2, List.append_assoc]
    rfl

/-- Behind the literal there is a text that does not end a literal with a backslash. -/
def Tail (e : Escapes) (cs : List Char) : Prop :=
  ∀ v w ts, lexFrom e (.text v) cs = some (.literal w :: ts) →
    ∃ x : List Char, w = String.ofList (v ++ x) ∧ x.getLast? ≠ some '\\'

/-- The first is shorter, or does not end with a backslash like the second. -/
def Unlike (x s : List Char) : Prop :=
  x.length < s.length ∨ s.getLast? = some '\\' ∧ x.getLast? ≠ some '\\'

theorem Unlike.ne (h : Unlike x s) : x ≠ s := by
  rintro rfl
  rcases h with h | ⟨h, hne⟩
  · exact Nat.lt_irrefl _ h
  · exact hne h

theorem Unlike.append {u t : List Char} (h : Unlike x s) (hle : u.length ≤ t.length) :
    Unlike (u ++ x) (t ++ s) := by
  rcases h with h | ⟨hs, hx⟩
  · left
    rw [List.length_append, List.length_append]
    omega
  · have hpos : 0 < s.length := by
      cases s with
      | nil => simp at hs
      | cons c s => exact Nat.succ_pos _
    cases x with
    | nil =>
      left
      rw [List.append_nil, List.length_append]
      omega
    | cons c x =>
      right
      rw [List.getLast?_append, List.getLast?_append, hs]
      refine ⟨rfl, fun heq => hx ?_⟩
      rw [List.getLast?_cons] at heq ⊢
      exact heq

/-- What the lexer reads as a literal where a value stands between double quotes: the value, which is plain
then, or something unlike the value. -/
theorem read_cases (htail : Tail e rest) {v : List Char} {w : String}
    {ts : List Token} (h : lexFrom e (.text v) (s ++ '"' :: rest) = some (.literal w :: ts)) :
    ∃ x : List Char, w = String.ofList (v ++ x) ∧ (x = s ∧ Plain e s ∨ Unlike x s) := by
  induction s using Plain.induct generalizing v with
  | case1 =>
    rw [List.nil_append, lexFrom_text_closing, Option.map_eq_some_iff] at h
    obtain ⟨us, -, hus⟩ := h
    have hw := (List.cons.inj hus).1
    refine ⟨[], ?_, .inl ⟨rfl, trivial⟩⟩
    rw [List.append_nil]
    exact (Token.literal.inj hw).symm
  | case2 =>
    have hun : unescaped e '"' = ['"'] := by rw [unescaped, e.unescape_quote]
    rw [List.singleton_append, lexFrom_text_escape, hun] at h
    obtain ⟨x, hw, hx⟩ := htail _ _ _ h
    refine ⟨'"' :: x, by rw [hw, List.append_assoc]; rfl, .inr (.inr ⟨rfl, ?_⟩)⟩
    cases x with
    | nil => decide
    | cons c x => rwa [List.getLast?_cons_cons]
  | case3 c s ih =>
    rw [List.cons_append, List.cons_append, lexFrom_text_escape] at h
    obtain ⟨x, hw, hx⟩ := ih h
    refine ⟨unescaped e c ++ x, by rw [hw, List.append_assoc], ?_⟩
    cases hc : e.unescape c with
    | some d =>
      -- the escape is shorter than what stands in the value
      have hun : unescaped e c = [d] := by rw [unescaped, hc]
      rw [hun]
      rcases hx with ⟨rfl, -⟩ | hx
      · exact .inr (.inl (by simp))
      · exact .inr (hx.append (t := ['\\', c]) (by simp))
    | none =>
      have hun : unescaped e c = ['\\', c] := by rw [unescaped, hc]
      rw [hun]
      rcases hx with ⟨rfl, hplain⟩ | hx
      · exact .inl ⟨rfl, hc, hplain⟩
      · exact .inr (hx.append (t := ['\\', c]) (Nat.le_refl _))
  | case4 c s hone htwo ih =>
    have hback : c ≠ '\\' := by
      rintro rfl
      cases s with
      | nil => exact hone rfl rfl
      | cons d s => exact htwo d s rfl rfl
    by_cases hquote : c = '"'
    · subst hquote
      rw [List.cons_append, lexFrom_text_closing, Option.map_eq_some_iff] at h
      obtain ⟨us, -, hus⟩ := h
      have hw := (List.cons.inj hus).1
      refine ⟨[], ?_, .inr (.inl (Nat.succ_pos _))⟩
      rw [List.append_nil]
      exact (Token.literal.inj hw).symm
    · rw [List.cons_append, lexFrom_text_cons hquote hback] at h
      obtain ⟨x, hw, hx⟩ := ih h
      refine ⟨c :: x, by rw [hw, List.append_assoc]; rfl, ?_⟩
      rcases hx with ⟨rfl, hplain⟩ | hx
      · exact .inl ⟨rfl, (plain_cons hback x).mpr ⟨hquote, hplain⟩⟩
      · exact .inr (hx.append (u := [c]) (t := [c]) (Nat.le_refl _))

/-- **Only plain values are read as they are.** -/
theorem plain_of_lexFrom (htail : Tail e rest) {ts : List Token}
    (h : lexFrom e (.text []) (s ++ '"' :: rest) = some (.literal (String.ofList s) :: ts)) :
    Plain e s := by
  obtain ⟨x, hx, hcases⟩ := read_cases htail h
  have hx : s = x := String.ofList_injective hx
  subst hx
  rcases hcases with ⟨-, hplain⟩ | hunlike
  · exact hplain
  · exact absurd rfl hunlike.ne

/-! ## Queries with parameters -/

/-- A parameter, and how it is put into the query. -/
inductive Param where
  /-- Between double quotes, as it is. -/
  | raw (value : String)
  | escaped (value : String)

/-- The value of a parameter. -/
def Param.value : Param → String
  | .raw value => value
  | .escaped value => value

/-- A parameter in the text of the query. -/
def Param.render : Param → List Char
  | .raw value => '"' :: (value.toList ++ ['"'])
  | .escaped value => quote value

/-- A query: a fixed text, and parameters with a fixed text behind each. -/
structure Query where
  head : String
  params : List (Param × String)

/-- The parameters and the texts behind them. -/
def renderParams : List (Param × String) → List Char
  | [] => []
  | (p, text) :: ps => p.render ++ (text.toList ++ renderParams ps)

/-- The text of the query. -/
def Query.render (q : Query) : String := String.ofList (q.head.toList ++ renderParams q.params)

variable (e)

/-- The tokens of the parameters and the texts behind them. -/
def paramTokens : List (Param × String) → List Token
  | [] => []
  | (p, text) :: ps => .literal p.value :: (words e text ++ paramTokens ps)

/-- The fixed texts, and for each parameter one literal. -/
def Query.tokens (q : Query) : List Token := words e q.head ++ paramTokens e q.params

/-- The fixed texts have neither quotes nor backslashes. -/
def Query.Fixed (q : Query) : Prop :=
  Clean q.head.toList ∧ ∀ p ∈ q.params, Clean p.2.toList

/-- The value of a parameter that is put into the query as it is. -/
def Param.raw? : Param → Option String
  | .raw value => some value
  | .escaped _ => none

/-- The values that are put into the query as they are. -/
def rawValues (ps : List (Param × String)) : List String := ps.filterMap fun p => p.1.raw?

theorem Query.Fixed.cons {p : Param} {ps : List (Param × String)}
    (hhead : Clean head.toList) (hrest : Query.Fixed ⟨text, ps⟩) :
    Query.Fixed ⟨head, (p, text) :: ps⟩ :=
  ⟨hhead, List.forall_mem_cons.mpr ⟨hrest.1, hrest.2⟩⟩

theorem Query.fixed_nil (hhead : Clean head.toList) : Query.Fixed ⟨head, []⟩ :=
  ⟨hhead, fun _ h => absurd h List.not_mem_nil⟩

variable {e}

theorem lexFrom_clean (v cs : List Char) (h : Clean cs) : lexFrom e (.text v) cs = none := by
  induction cs generalizing v with
  | nil => rfl
  | cons c cs ih =>
    have hc := h c List.mem_cons_self
    rw [lexFrom_text_cons hc.1 hc.2]
    exact ih _ fun d hd => h d (List.mem_cons_of_mem _ hd)

theorem lexFrom_clean_append (v cs ds : List Char) (h : Clean cs) :
    lexFrom e (.text v) (cs ++ ds) = lexFrom e (.text (v ++ cs)) ds := by
  induction cs generalizing v with
  | nil => rw [List.nil_append, List.append_nil]
  | cons c cs ih =>
    have hc := h c List.mem_cons_self
    rw [List.cons_append, lexFrom_text_cons hc.1 hc.2, ih _ fun d hd => h d (List.mem_cons_of_mem _ hd),
      List.append_assoc]
    rfl

theorem Clean.tail (h : Clean cs) : Tail e cs := by
  intro v w ts hlex
  rw [lexFrom_clean v cs h] at hlex
  exact absurd hlex (by simp)

theorem Clean.tail_quote (h : Clean cs) (ds : List Char) : Tail e (cs ++ '"' :: ds) := by
  intro v w ts hlex
  rw [lexFrom_clean_append v cs _ h, lexFrom_text_closing, Option.map_eq_some_iff] at hlex
  obtain ⟨us, -, hus⟩ := hlex
  refine ⟨cs, (Token.literal.inj (List.cons.inj hus).1).symm, fun hlast => ?_⟩
  exact (h _ (List.mem_of_getLast? hlast)).2 rfl

theorem render_eq (p : Param) : ∃ cs, p.render = '"' :: cs := by
  cases p with
  | raw value => exact ⟨_, rfl⟩
  | escaped value => exact ⟨_, rfl⟩

theorem tail_renderParams (htext : Clean text.toList) (ps : List (Param × String)) :
    Tail e (text.toList ++ renderParams ps) := by
  cases ps with
  | nil =>
    rw [renderParams, List.append_nil]
    exact htext.tail
  | cons p ps =>
    obtain ⟨cs, hcs⟩ := render_eq p.1
    rw [renderParams, hcs, List.cons_append]
    exact htext.tail_quote _

theorem lexFrom_params (htext : Clean text.toList) {ps : List (Param × String)}
    (hps : ∀ p ∈ ps, Clean p.2.toList) :
    lexFrom e .between (text.toList ++ renderParams ps) = some (words e text ++ paramTokens e ps) ↔
      ∀ value ∈ rawValues ps, Plain e value.toList := by
  induction ps generalizing text with
  | nil =>
    rw [renderParams, paramTokens, List.append_nil, List.append_nil, lexFrom_text htext]
    simp [rawValues]
  | cons p ps ih =>
    obtain ⟨p, next⟩ := p
    have hnext : Clean next.toList := hps _ List.mem_cons_self
    have ih := ih hnext fun q hq => hps q (List.mem_cons_of_mem _ hq)
    cases p with
    | escaped value =>
      have hrest := lexFrom_escaped (e := e) value.toList [] (next.toList ++ renderParams ps)
      rw [List.nil_append, String.ofList_toList] at hrest
      rw [renderParams, Param.render, quote, List.cons_append, List.append_assoc,
        List.singleton_append, lexFrom_text_opening htext, hrest, paramTokens, map_append_eq_some]
      change _ ↔ ∀ value ∈ rawValues ps, _
      rw [← ih]
      simp [Param.value]
    | raw value =>
      have htail := tail_renderParams (e := e) hnext ps
      rw [renderParams, Param.render, List.cons_append, List.append_assoc, List.singleton_append,
        lexFrom_text_opening htext, paramTokens, map_append_eq_some, Param.value]
      change _ ↔ ∀ v ∈ value :: rawValues ps, _
      rw [List.forall_mem_cons]
      constructor
      · intro h
        have hplain : Plain e value.toList := by
          have hread : lexFrom e (.text []) (value.toList ++ '"' :: (next.toList ++ renderParams ps)) =
              some (.literal (String.ofList value.toList) :: (words e next ++ paramTokens e ps)) := by
            rw [String.ofList_toList]
            exact h
          exact plain_of_lexFrom htail hread
        rw [lexFrom_plain hplain, List.nil_append, String.ofList_toList] at h
        exact ⟨hplain, ih.mp (by simpa using h)⟩
      · intro h
        rw [lexFrom_plain h.1, List.nil_append, String.ofList_toList, ih.mpr h.2]
        rfl

/-- **A query is read as its fixed texts with one literal for each parameter exactly when** the values that
are put into it as they are are plain. -/
theorem lex_render_iff {q : Query} (hq : q.Fixed) :
    lex e q.render = some (q.tokens e) ↔ ∀ value ∈ rawValues q.params, Plain e value.toList := by
  rw [lex, Query.render, String.toList_ofList]
  exact lexFrom_params hq.1 hq.2

end Lexical
