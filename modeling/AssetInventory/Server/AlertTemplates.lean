import AssetInventory.Lib.Placeholders
import AssetInventory.Lib.PyDict
import AssetInventory.Lib.PyText
import AssetInventory.Lib.PyTime
import AssetInventory.Lib.Run
import AssetInventory.Lib.Table
import Mathlib.Data.List.Dedup

/-!
# Alert templates

The title and the body of a template have variables, which an alert replaces by values of its context.  A template
declares the variables that may be used.

* `renderTemplate`, `validateTemplateVars`: what an alert makes of a text, and the variables that are not declared.
* `updateTemplate`: a change of some of the fields, checked together with the fields that stay.
* `OnlyDeclared`, `onlyDeclared`: changes leave no variable undeclared, and a text shows the declared variables only,
  each once.
-/

namespace AssetInventory.AlertTemplates

open PyJson PyTime PyDict RowStore Interleaving Placeholders

/-- A primary key. -/
abbrev Uuid := ℕ

/-! ## Texts -/

/-- What `\w` matches: not the braces. -/
structure WordChars where
  isWord : Char → Bool
  not_isWord_opening : isWord '\x7b' = false
  not_isWord_closing : isWord '\x7d' = false

def varRe (W : WordChars) : Brackets Char where
  opening := '\x7b'
  closing := '\x7d'
  isWord := W.isWord
  opening_ne_closing := by decide
  not_isWord_opening := W.not_isWord_opening
  not_isWord_closing := W.not_isWord_closing

section Texts

variable {V : Type} (W : WordChars) (str : V → String)

/-- `_VAR_RE.findall(text)`. -/
def findall (text : String) : List String := (holes (varRe W) text.toList).map String.ofList

/-- What takes the place of a variable. -/
def sub (allowedVars : List String) (context : List (String × Option V)) (name : String) : String :=
  if name ∈ allowedVars then
    match (get? context name).join with
    | none => "[MISSING: " ++ name ++ "]"
    | some val => str val
  else "[MISSING: " ++ name ++ "]"

def renderTemplate (text : String) (allowedVars : List String) (context : List (String × Option V)) : String :=
  if text = "" then ""
  else
    String.ofList (substitute (varRe W) (fun name => (sub str allowedVars context (String.ofList name)).toList)
      text.toList)

def validateTemplateVars (title : String) (body : Option String) (allowedVars : List String) : List String :=
  let found := findall W title ++ ((given body).map (findall W)).getD []
  ((found.filter fun name => decide (name ∉ allowedVars)).dedup).insertionSort (· ≤ ·)

end Texts

/-! ## Changes -/

/-- A row of `alert_templates`. -/
structure AlertTemplate where
  code : String
  name : String
  description : Option String
  category : String
  defaultSeverity : String
  titleTemplate : String
  bodyTemplate : Option String
  optOutControls : List String
  allowedVars : List String
  defaultConfig : Json
  enabled : Bool
  updatedBy : Option Uuid
  updatedAt : Time

structure AlertTemplateUpdateIn where
  name : Option String
  description : Option String
  category : Option String
  defaultSeverity : Option String
  titleTemplate : Option String
  bodyTemplate : Option String
  optOutControls : Option (List String)
  allowedVars : Option (List String)
  defaultConfig : Option Json
  enabled : Option Bool

/-- How a change fails. -/
inductive UpdateError where
  /-- `HTTPException(422, detail)`. -/
  | unprocessable (detail : String)
  | multipleResultsFound

def allowedOptOutControls : List String := ["template", "severity"]

section Updates

variable (W : WordChars) (R : Reprs)

def listText (xs : List String) : String := (Json.arr (xs.map Json.str)).repr R

/-- The fields that are given are assigned. -/
def AlertTemplateUpdateIn.assign (body : AlertTemplateUpdateIn) (row : AlertTemplate) (adminId : Uuid) (now : Time) :
    AlertTemplate where
  code := row.code
  name := body.name.getD row.name
  description := body.description.or row.description
  category := body.category.getD row.category
  defaultSeverity := body.defaultSeverity.getD row.defaultSeverity
  titleTemplate := body.titleTemplate.getD row.titleTemplate
  bodyTemplate := body.bodyTemplate.or row.bodyTemplate
  optOutControls := body.optOutControls.getD row.optOutControls
  allowedVars := body.allowedVars.getD row.allowedVars
  defaultConfig := body.defaultConfig.getD row.defaultConfig
  enabled := body.enabled.getD row.enabled
  updatedBy := some adminId
  updatedAt := now

/-- `update_template` on the row that it has read. -/
def updateRow (body : AlertTemplateUpdateIn) (row : AlertTemplate) (adminId : Uuid) (now : Time) :
    Except UpdateError AlertTemplate :=
  let bad := ((body.optOutControls.getD []).filter fun control => decide (control ∉ allowedOptOutControls)).dedup
  if bad ≠ [] then
    .error (.unprocessable ("opt_out_controls không hợp lệ: " ++ listText R (bad.insertionSort (· ≤ ·)) ++
      " (chỉ chấp nhận template/severity)"))
  else
    let newAllowed := body.allowedVars.getD row.allowedVars
    let newTitle := body.titleTemplate.getD row.titleTemplate
    let newBody := body.bodyTemplate.or row.bodyTemplate
    let warnings := validateTemplateVars W newTitle newBody newAllowed
    if warnings ≠ [] then
      .error (.unprocessable ("Template dùng biến không khai báo trong allowed_vars: " ++ listText R warnings))
    else .ok (body.assign row adminId now)

/-- A call of `update_template`. -/
structure UpdateCall where
  code : String
  body : AlertTemplateUpdateIn
  adminId : Uuid
  now : Time

/-- `update_template`; without a template of the code nothing is changed. -/
def updateTemplate (templates : Table Uuid AlertTemplate) (call : UpdateCall) :
    Except UpdateError (Table Uuid AlertTemplate) :=
  match scalarOneOrNone (templates.rowsWhere fun row => decide (row.code = call.code)) with
  | none => .error .multipleResultsFound
  | some none => .ok templates
  | some (some (id, row)) =>
    (updateRow W R call.body row call.adminId call.now).map fun new => templates.modify id fun _ => new

/-- One call after the other. -/
def step (templates : Table Uuid AlertTemplate) (call : UpdateCall) : Option (Table Uuid AlertTemplate) :=
  some (match updateTemplate W R templates call with
    | .ok new => new
    | .error _ => templates)

end Updates

/-! ## What is expected -/

section Expected

variable (W : WordChars)

/-- The variable stands in the text. -/
def Uses (text name : String) : Prop :=
  IsName (varRe W) name.toList ∧ placeholder (varRe W) name.toList <:+: text.toList

/-- **Title and body use declared variables only.** -/
def Declared (row : AlertTemplate) : Prop :=
  ∀ name, Uses W row.titleTemplate name ∨ (∃ body, row.bodyTemplate = some body ∧ Uses W body name) →
    name ∈ row.allowedVars

/-- **Only declared variables are used, and only they are shown.** -/
structure OnlyDeclared {V : Type} (R : Reprs) (str : V → String) : Prop where
  /-- Changes of a template that declares its variables, one after the other. -/
  kept : ∀ s t id row row', Runs (step W R) anyAction s t → s.get id = some row → Declared W row →
    t.get id = some row' → Declared W row'
  /-- Contexts that agree on the declared variables give the same text. -/
  shown : ∀ text allowedVars context context',
    (∀ name ∈ allowedVars, (get? context name).join = (get? context' name).join) →
      renderTemplate W str text allowedVars context = renderTemplate W str text allowedVars context'
  /-- A placeholder is replaced once, by a text that is not looked at again. -/
  once : ∀ front name back allowedVars context, IsName (varRe W) name.toList →
    renderTemplate W str (front ++ ("\x7b" ++ name ++ "\x7d") ++ back) allowedVars context =
      renderTemplate W str front allowedVars context ++ sub str allowedVars context name ++
        renderTemplate W str back allowedVars context
  /-- The rest of a text stays. -/
  rest : ∀ text allowedVars context, (∀ name, ¬Uses W text name) → renderTemplate W str text allowedVars context = text

end Expected

/-! ## Variables of a text -/

section Variables

variable {W : WordChars} {text name : String}

theorem mem_findall_iff : name ∈ findall W text ↔ Uses W text name := by
  unfold findall Uses
  rw [← mem_holes_iff, List.mem_map]
  constructor
  · rintro ⟨found, hfound, rfl⟩
    rw [String.toList_ofList]
    exact hfound
  · exact fun h => ⟨name.toList, h, String.ofList_toList⟩

/-- The body is looked at if there is one; an empty one has no variables. -/
theorem mem_findall_body_iff {body : Option String} :
    name ∈ ((given body).map (findall W)).getD [] ↔ ∃ b, body = some b ∧ Uses W b name := by
  cases body with
  | none => exact ⟨(nomatch ·), fun ⟨_, h, _⟩ => nomatch h⟩
  | some b =>
    have hboth : name ∈ ((given (some b)).map (findall W)).getD [] ↔ name ∈ findall W b := by
      by_cases hb : b = ""
      · subst hb
        exact Iff.rfl
      · rw [given_of_ne hb]
        exact Iff.rfl
    rw [hboth, mem_findall_iff]
    exact ⟨fun h => ⟨b, rfl, h⟩, fun ⟨_, heq, h⟩ => Option.some.inj heq ▸ h⟩

/-- **The check** finds nothing exactly when the texts use declared variables only. -/
theorem validateTemplateVars_eq_nil_iff {title : String} {body : Option String} {allowedVars : List String} :
    validateTemplateVars W title body allowedVars = [] ↔
      ∀ name, Uses W title name ∨ (∃ b, body = some b ∧ Uses W b name) → name ∈ allowedVars := by
  unfold validateTemplateVars
  rw [List.eq_nil_iff_forall_not_mem]
  refine forall_congr' fun name => ?_
  rw [(List.perm_insertionSort _ _).mem_iff, List.mem_dedup, List.mem_filter, List.mem_append, mem_findall_iff,
    mem_findall_body_iff, decide_eq_true_eq, not_and, not_not]

end Variables

/-! ## Templates stay declared -/

section Kept

variable {W : WordChars} {R : Reprs} {templates new : Table Uuid AlertTemplate}

/-- What is stored has been checked as a whole. -/
theorem declared_of_updateRow {body : AlertTemplateUpdateIn} {row row' : AlertTemplate} {adminId : Uuid} {now : Time}
    (h : updateRow W R body row adminId now = .ok row') : Declared W row' := by
  unfold updateRow at h
  dsimp only at h
  split_ifs at h with hbad hwarnings
  cases h
  exact validateTemplateVars_eq_nil_iff.mp (not_not.mp hwarnings)

/-- **A call keeps the declared templates declared.** -/
theorem declared_step {call : UpdateCall} {id : Uuid} (hstep : step W R templates call = some new)
    (h : ∀ row, templates.get id = some row → Declared W row) : ∀ row, new.get id = some row → Declared W row := by
  unfold step updateTemplate at hstep
  split at hstep
  · rename_i updated hupdated
    cases hstep
    split at hupdated
    · cases hupdated
    · cases hupdated
      exact h
    · rename_i found stored _
      cases hrow : updateRow W R call.body stored call.adminId call.now with
      | error error =>
        rw [hrow] at hupdated
        cases hupdated
      | ok row' =>
        rw [hrow] at hupdated
        cases hupdated
        intro row hget
        rcases Table.get_modify_cases hget with ⟨-, _, -, rfl⟩ | ⟨-, hget⟩
        · exact declared_of_updateRow hrow
        · exact h row hget
  · cases hstep
    exact h

end Kept

/-! ## What a text shows -/

section Render

variable {V : Type} {W : WordChars} {str : V → String}

/-- The empty text is no exception. -/
theorem toList_renderTemplate (text : String) (allowedVars : List String) (context : List (String × Option V)) :
    (renderTemplate W str text allowedVars context).toList =
      substitute (varRe W) (fun name => (sub str allowedVars context (String.ofList name)).toList) text.toList := by
  unfold renderTemplate
  split_ifs with htext
  · subst htext
    rfl
  · exact String.toList_ofList

theorem sub_congr {allowedVars : List String} {context context' : List (String × Option V)} {name : String}
    (h : ∀ name ∈ allowedVars, (get? context name).join = (get? context' name).join) :
    sub str allowedVars context name = sub str allowedVars context' name := by
  unfold sub
  split_ifs with hname
  · rw [h name hname]
  · rfl

end Render

/-- **Only declared variables are used, and only they are shown.** -/
theorem onlyDeclared {V : Type} (W : WordChars) (R : Reprs) (str : V → String) : OnlyDeclared W R str where
  kept s t id row row' hruns hget hdeclared hget' := by
    refine hruns.invariant (I := fun s => ∀ row, s.get id = some row → Declared W row) ?_ ?_ row' hget'
    · exact fun _ _ _ h _ hstep => declared_step hstep h
    · intro other hother
      cases hget.symm.trans hother
      exact hdeclared
  shown text allowedVars context context' h := by
    refine String.toList_injective ?_
    rw [toList_renderTemplate, toList_renderTemplate]
    exact substitute_congr fun name _ => congrArg String.toList (sub_congr h)
  once front name back allowedVars context hname := by
    refine String.toList_injective ?_
    have htext : (front ++ ("\x7b" ++ name ++ "\x7d") ++ back).toList =
        front.toList ++ placeholder (varRe W) name.toList ++ back.toList := by
      rw [String.toList_append, String.toList_append, String.toList_append, String.toList_append]
      rfl
    rw [toList_renderTemplate, htext, substitute_append_placeholder hname, String.ofList_toList, String.toList_append,
      String.toList_append, toList_renderTemplate, toList_renderTemplate]
  rest text allowedVars context h := by
    refine String.toList_injective ?_
    rw [toList_renderTemplate]
    refine substitute_of_free fun name hname => h (String.ofList name) ?_
    unfold Uses
    rw [String.toList_ofList]
    exact mem_holes_iff.mp hname

/-- A host that is named like a variable. -/
example : renderTemplate ⟨fun c => c.isAlphanum || c == '_', by decide, by decide⟩ id "\x7bhost\x7d on \x7bos\x7d" ["host", "ip"]
    [("host", some "\x7bip\x7d"), ("ip", some "10.0.0.1"), ("os", some "x")] = "\x7bip\x7d on [MISSING: os]" := by
  decide +kernel

end AssetInventory.AlertTemplates
