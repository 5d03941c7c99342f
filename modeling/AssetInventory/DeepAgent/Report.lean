import AssetInventory.DeepAgent.Models
import Mathlib.Data.List.Sort

/-!
# The report

`buildMarkdownReport` writes the report of an investigation from the request, the assessment and the
evidence.  Texts of the model and of the endpoint go through `clean`.
-/

namespace AssetInventory.DeepAgent

open PyJson PyTime

def clean (value : String) : String :=
  replace "<script" "&lt;script" (replace (String.ofList [Char.ofNat 0]) "" value)

/-- `s or default` of an optional text. -/
def textOr (s : Option String) (default : String) : String :=
  if truthy s then s.getD "" else default

def findingLines (finding : Finding) : List String :=
  [ "### " ++ finding.id ++ " — " ++ clean finding.title,
    "",
    "- **Phân loại:** `" ++ finding.status.name ++ "`",
    "- **Mức độ:** `" ++ finding.severity.name ++ "`",
    "- **Độ tin cậy:** `" ++ finding.confidence.name ++ "`",
    "- **Bằng chứng:** " ++
      join ", " (finding.evidenceRefs.map fun ref => "`" ++ ref ++ "`") ++ " — " ++
      clean finding.evidence,
    "- **MITRE ATT&CK:** `" ++ textOr finding.mitreId "N/A" ++ "`",
    "" ]

/-- The line of an item among the sources. -/
def sourceLine (item : EvidenceItem) : String :=
  "- `" ++ item.evidenceId ++ "` — `" ++ item.tool ++ "` — " ++
    if item.ok then "thành công" else "lỗi: " ++ clean (textOr item.error "không rõ")

def timelineLine (item : EvidenceItem) : String :=
  "- `" ++ isoformat item.collectedAt ++ "` — `" ++ item.evidenceId ++ "` — `" ++
    item.tool ++ "` — " ++ if item.ok then "thành công" else "thất bại"

/-- The line of an indicator. -/
def iocLine (ioc : Ioc) : String :=
  "- **" ++ ioc.type ++ ":** `" ++ clean ioc.value ++ "` — nguồn `" ++ ioc.evidenceRef ++
    "`"

/-- Lines, or one line if there are none. -/
def linesOr (lines : List String) (default : String) : List String :=
  if lines = [] then [default] else lines

/-- The recommendations, each once. -/
def recommendations (assessment : Assessment) : List String :=
  ((assessment.findings.filter fun finding => decide (strip finding.recommendation ≠ "")).map
    fun finding => clean finding.recommendation).eraseDups

/-- The limitations, those of failed collections last. -/
def limitationLines (assessment : Assessment) (evidence : List EvidenceItem) : List String :=
  assessment.limitations ++
    (evidence.filter fun item => !item.ok).map fun item =>
      "Truy vấn `" ++ item.tool ++ "` thất bại: " ++ item.error.getD "None"

def buildMarkdownReport (request : InvestigationRequest) (assessment : Assessment)
    (evidence : List EvidenceItem) : String :=
  let successful := (evidence.filter EvidenceItem.ok).length
  let failed := evidence.length - successful
  let lines :=
    [ "---",
      "schema_version: dfir.report/1.0",
      "---",
      "",
      "# Báo cáo điều tra máy " ++ clean request.hostname,
      "",
      "## 1. Tóm tắt",
      "",
      clean assessment.executiveSummary,
      "",
      "## 2. Phạm vi và nguồn dữ liệu",
      "",
      "- **Client ID:** `" ++ request.clientId ++ "`",
      "- **Khoảng thời gian:** `" ++ isoformat request.timeRange.from_ ++ "` đến `" ++
        isoformat request.timeRange.to_ ++ "`",
      "- **Mức độ:** `" ++ assessment.severity.name ++ "`",
      "- **Độ tin cậy:** `" ++ assessment.confidence.name ++ "`",
      "- **Số phát hiện:** `" ++ toString assessment.findings.length ++ "`",
      "",
      "DeepAgent đã thực hiện " ++ toString evidence.length ++ " truy vấn MCP read-only: " ++
        toString successful ++ " thành công, " ++ toString failed ++ " lỗi.",
      "" ] ++
    evidence.map sourceLine ++
    ["", "## 3. Phát hiện", ""] ++
    (if assessment.findings = [] then
      ["Không có phát hiện đủ bằng chứng trong phạm vi dữ liệu đã thu thập."] else []) ++
    assessment.findings.flatMap findingLines ++
    ["## 4. IoC", ""] ++
    linesOr (assessment.iocs.map iocLine)
      "Không trích xuất được IoC có nguồn bằng chứng hợp lệ." ++
    ["", "## 5. Dòng thời gian", ""] ++
    linesOr
      ((evidence.insertionSort fun a b => a.collectedAt ≤ b.collectedAt).map timelineLine)
      "Không có mốc thu thập bằng chứng trong phạm vi điều tra." ++
    ["", "## 6. Đánh giá và kết luận", "", clean assessment.conclusion, ""] ++
    ["## 7. Khuyến nghị", ""] ++
    linesOr ((recommendations assessment).map fun item => "- " ++ item)
      "- Tiếp tục giám sát và chỉ mở rộng điều tra khi có chỉ dấu mới." ++
    ["", "## 8. Hạn chế", ""] ++
    linesOr ((limitationLines assessment evidence).map fun item => "- " ++ clean item)
      "- Không ghi nhận hạn chế bổ sung ngoài phạm vi thời gian đã chỉ định."
  strip (join "\n" lines) ++ "\n"

/-! ## What section 2 says

The texts before section 2 come from the model and may look like a section, so that a reader finds the
place by what stands before it. -/

/-- The lines before the counts. -/
def frontLines (request : InvestigationRequest) (assessment : Assessment) : List String :=
  [ "---",
    "schema_version: dfir.report/1.0",
    "---",
    "",
    "# Báo cáo điều tra máy " ++ clean request.hostname,
    "",
    "## 1. Tóm tắt",
    "",
    clean assessment.executiveSummary,
    "",
    "## 2. Phạm vi và nguồn dữ liệu",
    "",
    "- **Client ID:** `" ++ request.clientId ++ "`",
    "- **Khoảng thời gian:** `" ++ isoformat request.timeRange.from_ ++ "` đến `" ++
      isoformat request.timeRange.to_ ++ "`",
    "- **Mức độ:** `" ++ assessment.severity.name ++ "`",
    "- **Độ tin cậy:** `" ++ assessment.confidence.name ++ "`",
    "- **Số phát hiện:** `" ++ toString assessment.findings.length ++ "`",
    "" ]

/-- The line with the numbers of queries, successes and failures. -/
def countsLine (queries successful failed : ℕ) : String :=
  "DeepAgent đã thực hiện " ++ toString queries ++ " truy vấn MCP read-only: " ++
    toString successful ++ " thành công, " ++ toString failed ++ " lỗi."

/-- Section 2 of a report states the numbers. -/
def Stated (request : InvestigationRequest) (assessment : Assessment) (report : String)
    (queries successful failed : ℕ) : Prop :=
  linesText (frontLines request assessment ++ [countsLine queries successful failed]) <+: report.toList

/-- Section 2 of a report has the lines about its sources. -/
def Sources (request : InvestigationRequest) (assessment : Assessment) (report : String)
    (lines : List String) : Prop :=
  ∃ queries successful failed,
    linesText (frontLines request assessment ++ [countsLine queries successful failed, ""] ++ lines ++
      [""]) ++ "## 3. Phát hiện".toList <+: report.toList

/-- Section 2 of a report lists an evidence id. -/
def Listed (request : InvestigationRequest) (assessment : Assessment) (report id : String) : Prop :=
  ∃ lines, Sources request assessment report lines ∧
    ∃ line ∈ lines, startsWith ("- `" ++ id ++ "` — ") line = true

/-- The numbers of a list of items. -/
def successes (evidence : List EvidenceItem) : ℕ := (evidence.filter EvidenceItem.ok).length

variable {request : InvestigationRequest} {assessment : Assessment} {evidence : List EvidenceItem}

/-- The lines behind the heading of section 3. -/
def backLines (assessment : Assessment) (evidence : List EvidenceItem) : List String :=
  (if assessment.findings = [] then
    ["Không có phát hiện đủ bằng chứng trong phạm vi dữ liệu đã thu thập."] else []) ++
  (assessment.findings.flatMap findingLines ++
  (["## 4. IoC", ""] ++
  (linesOr (assessment.iocs.map iocLine) "Không trích xuất được IoC có nguồn bằng chứng hợp lệ." ++
  (["", "## 5. Dòng thời gian", ""] ++
  (linesOr ((evidence.insertionSort fun a b => a.collectedAt ≤ b.collectedAt).map timelineLine)
    "Không có mốc thu thập bằng chứng trong phạm vi điều tra." ++
  (["", "## 6. Đánh giá và kết luận", "", clean assessment.conclusion, ""] ++
  (["## 7. Khuyến nghị", ""] ++
  (linesOr ((recommendations assessment).map fun item => "- " ++ item)
    "- Tiếp tục giám sát và chỉ mở rộng điều tra khi có chỉ dấu mới." ++
  (["", "## 8. Hạn chế", ""] ++
  linesOr ((limitationLines assessment evidence).map fun item => "- " ++ clean item)
    "- Không ghi nhận hạn chế bổ sung ngoài phạm vi thời gian đã chỉ định.")))))))))

/-- The lines up to section 3. -/
def upToSection3 (request : InvestigationRequest) (assessment : Assessment)
    (evidence : List EvidenceItem) : List String :=
  frontLines request assessment ++
    [countsLine evidence.length (successes evidence) (evidence.length - successes evidence), ""] ++
    evidence.map sourceLine ++ [""]

theorem buildMarkdownReport_eq (request : InvestigationRequest) (assessment : Assessment)
    (evidence : List EvidenceItem) : buildMarkdownReport request assessment evidence =
      strip (join "\n" (upToSection3 request assessment evidence ++
        "## 3. Phát hiện" :: "" :: backLines assessment evidence)) ++ "\n" := by
  unfold buildMarkdownReport upToSection3 backLines
  simp only [List.append_assoc]
  rfl

/-- **The beginning of a report** is kept as it is. -/
theorem section2_starts (request : InvestigationRequest) (assessment : Assessment)
    (evidence : List EvidenceItem) :
    linesText (upToSection3 request assessment evidence) ++ "## 3. Phát hiện".toList <+:
      (buildMarkdownReport request assessment evidence).toList := by
  obtain ⟨more, hmore⟩ : ∃ more, upToSection3 request assessment evidence = "---" :: more := ⟨_, rfl⟩
  have hfirst : "---".toList = ['-', '-', '-'] := by decide
  have hheading : "## 3. Phát hiện".toList = "## 3. Phát hiệ".toList ++ ['n'] := by decide
  have hfront : linesText (upToSection3 request assessment evidence) ++ "## 3. Phát hiện".toList =
      '-' :: ('-' :: '-' :: '\n' :: (linesText more ++ "## 3. Phát hiệ".toList) ++ ['n']) := by
    rw [hmore, linesText_cons, hfirst, hheading]
    simp only [List.cons_append, List.nil_append, List.append_assoc]
  rw [buildMarkdownReport_eq, String.toList_append, hfront]
  exact (prefix_strip_join (by decide) (by decide) hfront).trans (List.prefix_append _ _)

theorem stated_counts (request : InvestigationRequest) (assessment : Assessment)
    (evidence : List EvidenceItem) :
    Stated request assessment (buildMarkdownReport request assessment evidence) evidence.length
      (successes evidence) (evidence.length - successes evidence) := by
  refine List.IsPrefix.trans ?_ (section2_starts request assessment evidence)
  rw [upToSection3, List.append_assoc, List.append_assoc, linesText_append, linesText_append,
    List.append_assoc]
  refine (List.prefix_append_right_inj _).mpr ?_
  rw [List.cons_append, linesText_cons, linesText_cons, List.append_assoc]
  refine (List.prefix_append_right_inj _).mpr ?_
  exact ⟨_, rfl⟩

theorem listed_of_mem {item : EvidenceItem} (h : item ∈ evidence) :
    Listed request assessment (buildMarkdownReport request assessment evidence) item.evidenceId := by
  refine ⟨evidence.map sourceLine, ⟨_, _, _, section2_starts request assessment evidence⟩,
    sourceLine item, List.mem_map_of_mem h, ?_⟩
  have hline : sourceLine item = ("- `" ++ item.evidenceId ++ "` — ") ++ ("`" ++ item.tool ++ "` — " ++
      if item.ok then "thành công" else "lỗi: " ++ clean (textOr item.error "không rõ")) := by
    unfold sourceLine
    simp only [String.append_assoc]
    rfl
  rw [hline]
  exact startsWith_append _ _

/-- What follows the number of queries. -/
def afterQueries (successful failed : ℕ) : List Char :=
  "truy vấn MCP read-only: ".toList ++ ((toString successful).toList ++ (" thành công, ".toList ++
    ((toString failed).toList ++ " lỗi.".toList)))

/-- The characters of a text with three numbers in it, the first of which a space follows. -/
theorem toList_numbers {front first second third : String} {tail : List Char}
    (h : first.toList = ' ' :: tail) (a b c : ℕ) :
    (front ++ toString a ++ first ++ toString b ++ second ++ toString c ++ third).toList =
      front.toList ++ ((toString a).toList ++ ' ' :: (tail ++ ((toString b).toList ++
        (second.toList ++ ((toString c).toList ++ third.toList))))) := by
  simp only [String.toList_append, List.append_assoc, h, List.cons_append]

theorem toList_countsLine (queries successful failed : ℕ) :
    (countsLine queries successful failed).toList = "DeepAgent đã thực hiện ".toList ++
      ((toString queries).toList ++ ' ' :: afterQueries successful failed) :=
  toList_numbers (by decide +kernel) queries successful failed

/-- **The number of queries is read off the report.** -/
theorem stated_queries_inj {report : String} {m n s s' f f' : ℕ}
    (hm : Stated request assessment report m s f) (hn : Stated request assessment report n s' f') :
    m = n := by
  have hline : ∀ {k a b : ℕ}, Stated request assessment report k a b →
      (linesText (frontLines request assessment) ++ "DeepAgent đã thực hiện ".toList) ++
        ((toString k).toList ++ ' ' :: (afterQueries a b ++ ['\n'])) <+: report.toList := by
    intro k a b h
    rw [Stated, linesText_append, linesText_cons, toList_countsLine] at h
    simpa only [linesText, List.flatMap_nil, List.append_assoc, List.cons_append] using h
  obtain ⟨text, htext⟩ := (List.prefix_append _ _).trans (hline hm)
  have hqueries : ∀ {k a b : ℕ}, Stated request assessment report k a b →
      (toString k).toList ++ ' ' :: (afterQueries a b ++ ['\n']) <+: text := by
    intro k a b h
    have hstart := hline h
    rw [← htext] at hstart
    exact (List.prefix_append_right_inj _).mp hstart
  exact toString_prefix_inj (by decide) (by decide) (hqueries hm) (hqueries hn)

end AssetInventory.DeepAgent
