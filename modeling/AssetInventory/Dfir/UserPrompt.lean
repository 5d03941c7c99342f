import AssetInventory.Lib.PyText
import Mathlib.Algebra.Ring.Nat

/-!
# The prompt of an investigation

The local analysis sends the LLM one text: the machine, the rows of every artifact, the request of the investigator, and
what to do with all this.  A text that is too long is cut at the end, where the request and the instruction are.

* `buildInvestigationUserPrompt`: the prompt.
* `fixedLength`, `dataLength`: the length without the artifacts, and what the artifacts add to it; `length_uncut`.
* `KeepsBudget`: the prompt stays within its limit and says what it is to say.
* `keepsBudget_iff`: it does exactly when the artifacts fit in what the rest leaves of the limit.
-/

namespace AssetInventory.UserPrompt

open PyJson PyTime

/-! ## The prompt -/

/-- A row of an artifact. -/
abbrev Row := List (String × Json)

/-- What the prompt ends with. -/
def closing : String := "Hãy phân tích dữ liệu trên và trả về báo cáo theo cấu trúc đã định."

/-- What is put behind a text that has been cut. -/
def notice : String := "\n\n[DỮ LIỆU ĐÃ CẮT BỚT DO QUÁ DÀI]"

section Prompt

variable (R : Reprs)

def safe (v : Json) : String :=
  let s := replace "\r" " " (replace "\n" " " (v.pyStr R))
  if 200 < s.length then truncate 200 s ++ "..." else s

/-- `v not in (None, "", [])`. -/
def shown (v : Json) : Bool := decide (v ∉ [.null, .str "", .arr []])

/-- The fields of a row. -/
def rowText (row : Row) : String :=
  join " | " ((row.filter fun p => shown p.2).map fun p => p.1 ++ "=" ++ safe R p.2)

/-- The line of a row, if it has anything to say. -/
def rowLine (row : Row) : Option String :=
  if rowText R row ≠ "" then some ("  - " ++ rowText R row) else none

def artifactLines (artifact : String × List Row) : List String :=
  let rows := artifact.2
  if rows = [] then []
  else
    ["## Artifact: `" ++ artifact.1 ++ "` (" ++ toString rows.length ++ " dòng)"] ++
      (rows.take 200).filterMap (rowLine R) ++
      (if 200 < rows.length then
        ["  - ... và " ++ toString (rows.length - 200) ++ " dòng nữa (đã lược bớt)"] else []) ++
      [""]

/-- The lines about the machine. -/
def machineLines (hostname : String) (osInfo : Row) : List String :=
  [ "# Dữ liệu điều tra máy `" ++ hostname ++ "`\n",
    "## Thông tin hệ thống",
    "- OS: " ++ (getD osInfo "system" (.str "?")).pyStr R ++ " " ++ (getD osInfo "release" (.str "")).pyStr R,
    "- Kiến trúc: " ++ (getD osInfo "architecture" (.str "?")).pyStr R,
    "- FQDN: " ++ (getD osInfo "fqdn" (.str "?")).pyStr R,
    "" ]

/-- The lines with the request of the investigator. -/
def customLines (customInstructions : Option String) : List String :=
  match given customInstructions with
  | some custom => ["---", "**Yêu cầu đặc biệt từ điều tra viên:** " ++ custom, ""]
  | none => []

def promptParts (hostname : String) (osInfo : Row) (artifactsData : List (String × List Row))
    (customInstructions : Option String) : List String :=
  machineLines R hostname osInfo ++ artifactsData.flatMap (artifactLines R) ++ customLines customInstructions ++
    ["---", closing]

def buildInvestigationUserPrompt (hostname : String) (osInfo : Row) (artifactsData : List (String × List Row))
    (customInstructions : Option String) (maxChars : ℤ) : String :=
  let full := join "\n" (promptParts R hostname osInfo artifactsData customInstructions)
  if maxChars < full.length then String.ofList (takeTo maxChars full.toList) ++ notice else full

/-! ## Lengths -/

/-- The length of the lines, each with its end. -/
def linesLength (lines : List String) : ℕ := (lines.map fun line => line.length + 1).sum

/-- The length of the prompt without the artifacts. -/
def fixedLength (hostname : String) (osInfo : Row) (customInstructions : Option String) : ℕ :=
  (join "\n" (promptParts R hostname osInfo [] customInstructions)).length

/-- What the artifacts add to it. -/
def dataLength (artifactsData : List (String × List Row)) : ℕ := linesLength (artifactsData.flatMap (artifactLines R))

end Prompt

theorem linesLength_append (lines more : List String) :
    linesLength (lines ++ more) = linesLength lines + linesLength more := by
  rw [linesLength, List.map_append, List.sum_append, linesLength, linesLength]

theorem length_join {lines : List String} (h : lines ≠ []) : (join "\n" lines).length + 1 = linesLength lines := by
  have htext : ((join "\n" lines).toList ++ ['\n']).length = (linesText lines).length := by
    rw [toList_join_newline h]
  rw [List.length_append, String.length_toList, List.length_singleton, linesText, List.length_flatMap] at htext
  rw [htext, linesLength]
  congr 1
  exact List.map_congr_left fun line _ => by rw [List.length_append, String.length_toList, List.length_singleton]

section Lengths

variable {R : Reprs} {hostname : String} {osInfo : Row} {artifactsData : List (String × List Row)}
  {customInstructions : Option String} {maxChars : ℤ}

theorem promptParts_ne_nil (R : Reprs) (hostname : String) (osInfo : Row) (artifactsData : List (String × List Row))
    (customInstructions : Option String) : promptParts R hostname osInfo artifactsData customInstructions ≠ [] :=
  List.append_ne_nil_of_right_ne_nil _ (List.cons_ne_nil _ _)

/-- **The length of the whole text.** -/
theorem length_uncut (R : Reprs) (hostname : String) (osInfo : Row) (artifactsData : List (String × List Row))
    (customInstructions : Option String) :
    (join "\n" (promptParts R hostname osInfo artifactsData customInstructions)).length =
      fixedLength R hostname osInfo customInstructions + dataLength R artifactsData := by
  have hwhole := length_join (promptParts_ne_nil R hostname osInfo artifactsData customInstructions)
  have hfixed := length_join (promptParts_ne_nil R hostname osInfo [] customInstructions)
  simp only [promptParts, linesLength_append, List.flatMap_nil, List.append_nil] at hwhole hfixed
  rw [fixedLength, dataLength, promptParts, promptParts, List.flatMap_nil, List.append_nil]
  omega

theorem length_takeTo {α : Type*} (n : ℤ) (xs : List α) : n ≤ xs.length → n ≤ (takeTo n xs).length := by
  intro hle
  unfold takeTo
  split_ifs with hnonneg
  · rw [List.length_take]
    omega
  · omega

theorem lt_length_of_cut (h : maxChars < fixedLength R hostname osInfo customInstructions + dataLength R artifactsData) :
    maxChars < (buildInvestigationUserPrompt R hostname osInfo artifactsData customInstructions maxChars).length := by
  rw [← Nat.cast_add, ← length_uncut, ← String.length_toList] at h
  have hcut : buildInvestigationUserPrompt R hostname osInfo artifactsData customInstructions maxChars =
      String.ofList (takeTo maxChars (join "\n"
        (promptParts R hostname osInfo artifactsData customInstructions)).toList) ++ notice :=
    if_pos (String.length_toList ▸ h)
  rw [hcut, ← String.length_toList, String.toList_append, List.length_append, String.toList_ofList]
  have hnotice : notice.toList.length = 33 := by decide
  have htaken := length_takeTo maxChars _ h.le
  omega

theorem prompt_of_le (h : fixedLength R hostname osInfo customInstructions + dataLength R artifactsData ≤ maxChars) :
    buildInvestigationUserPrompt R hostname osInfo artifactsData customInstructions maxChars =
      join "\n" (promptParts R hostname osInfo artifactsData customInstructions) := by
  rw [← Nat.cast_add, ← length_uncut] at h
  exact if_neg (not_lt.mpr h)

theorem infix_join {lines : List String} {line : String} {cs : List Char} (hline : line ∈ lines)
    (hcs : cs <:+: line.toList) : cs <:+: (join "\n" lines).toList := by
  induction lines with
  | nil => cases hline
  | cons first lines ih =>
    cases lines with
    | nil =>
      obtain rfl := List.mem_singleton.mp hline
      rwa [join, String.intercalate_singleton]
    | cons next lines =>
      rw [join, String.intercalate_cons_cons, String.toList_append, String.toList_append]
      rcases List.mem_cons.mp hline with rfl | hrest
      · exact (hcs.trans (List.prefix_append _ _).isInfix).trans (List.prefix_append _ _).isInfix
      · exact (ih hrest).trans (List.suffix_append _ _).isInfix

theorem custom_infix_uncut {custom : String} (h : customInstructions = some custom) :
    custom.toList <:+: (join "\n" (promptParts R hostname osInfo artifactsData customInstructions)).toList := by
  by_cases hempty : custom = ""
  · rw [hempty]
    exact List.nil_infix
  · have hgiven : given customInstructions = some custom := by rw [h, given_of_ne hempty]
    have hline : "**Yêu cầu đặc biệt từ điều tra viên:** " ++ custom ∈
        promptParts R hostname osInfo artifactsData customInstructions := by
      simp [promptParts, customLines, hgiven]
    refine infix_join hline ?_
    rw [String.toList_append]
    exact (List.suffix_append _ _).isInfix

theorem closing_infix_uncut :
    closing.toList <:+: (join "\n" (promptParts R hostname osInfo artifactsData customInstructions)).toList :=
  infix_join (List.mem_append_right _ (List.mem_cons_of_mem _ (List.mem_singleton_self _))) (List.infix_refl _)

end Lengths

/-! ## What is expected -/

/-- **The prompt stays within its limit and says what it is to say.** -/
structure KeepsBudget (R : Reprs) (hostname : String) (osInfo : Row) (artifactsData : List (String × List Row))
    (customInstructions : Option String) (maxChars : ℤ) : Prop where
  length_le :
    (buildInvestigationUserPrompt R hostname osInfo artifactsData customInstructions maxChars).length ≤ maxChars
  custom_infix : ∀ custom, customInstructions = some custom →
    custom.toList <:+:
      (buildInvestigationUserPrompt R hostname osInfo artifactsData customInstructions maxChars).toList
  closing_infix : closing.toList <:+:
    (buildInvestigationUserPrompt R hostname osInfo artifactsData customInstructions maxChars).toList

/-- **Exactly when the artifacts fit** in what the rest of the text leaves of the limit. -/
theorem keepsBudget_iff (R : Reprs) (hostname : String) (osInfo : Row) (artifactsData : List (String × List Row))
    (customInstructions : Option String) (maxChars : ℤ) :
    KeepsBudget R hostname osInfo artifactsData customInstructions maxChars ↔
      fixedLength R hostname osInfo customInstructions + dataLength R artifactsData ≤ maxChars := by
  constructor
  · intro h
    by_contra hlong
    exact absurd (lt_length_of_cut (not_le.mp hlong)) (not_lt.mpr h.length_le)
  · intro hfits
    have huncut := prompt_of_le hfits
    exact
      { length_le := by
          rw [huncut, length_uncut, Nat.cast_add]
          exact hfits
        custom_infix := fun custom hcustom => huncut ▸ custom_infix_uncut hcustom
        closing_infix := huncut ▸ closing_infix_uncut }

/-- Forty processes are too much for a limit of a thousand characters, whatever else there is to say. -/
theorem request_cut :
    ¬∀ (R : Reprs) (hostname : String) (osInfo : Row) (artifactsData : List (String × List Row))
        (customInstructions : Option String) (maxChars : ℤ),
      fixedLength R hostname osInfo customInstructions + notice.length ≤ maxChars →
        KeepsBudget R hostname osInfo artifactsData customInstructions maxChars := by
  intro hall
  let R : Reprs := ⟨fun _ => "", fun s => s⟩
  let rows : List Row := List.replicate 40 [("Name", .str "svchost.exe")]
  have hfixed : fixedLength R "PC-01" [] (some "Tìm dấu vết USB") = 220 := by
    refine Nat.succ_injective ((length_join (promptParts_ne_nil _ _ _ _ _)).trans ?_)
    decide +kernel
  have hline : rowLine R [("Name", .str "svchost.exe")] = some "  - Name=svchost.exe" := by decide +kernel
  have hlines : artifactLines R ("Windows.System.Pslist", rows) =
      "## Artifact: `Windows.System.Pslist` (40 dòng)" ::
        (List.replicate 40 "  - Name=svchost.exe" ++ [""]) := by
    simp only [artifactLines, rows, List.take_replicate, List.filterMap_replicate_of_some hline,
      List.length_replicate]
    rfl
  have hdata : dataLength R [("Windows.System.Pslist", rows)] = 888 := by
    rw [dataLength, List.flatMap_singleton, hlines]
    decide +kernel
  have hroom : (220 : ℤ) + notice.length ≤ 1000 := by decide +kernel
  have hkeeps := hall R "PC-01" [] [("Windows.System.Pslist", rows)] (some "Tìm dấu vết USB") 1000
    (by rw [hfixed]; exact hroom)
  refine absurd (lt_length_of_cut ?_) (not_lt.mpr hkeeps.length_le)
  rw [hfixed, hdata]
  decide

end AssetInventory.UserPrompt
