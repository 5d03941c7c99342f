import AssetInventory.DeepAgent.Report
import AssetInventory.DeepAgent.Prompts
import AssetInventory.Lib.Caseless

/-!
# Script tags in a report

A report goes to a portal that shows it as a page, and `clean` is there to keep script tags out of it.  It knows of one
letter case, and not every text goes through it.

* `TagFree`: no opening script tag in any letter case, and no NUL.
* `tagFree_clean_iff`: what `clean` does to a text.
* `tagFree_report_iff`: when a report is free of script tags.
-/

namespace AssetInventory.DeepAgent

open PyJson PyTime Caseless

/-! ## Tags -/

/-- `<script`. -/
def scriptTag : List Char := ['<', 's', 'c', 'r', 'i', 'p', 't']

/-- `"\x00"`. -/
def nul : Char := Char.ofNat 0

/-- **A text has no script tag**, in any letter case, and no NUL. -/
def TagFree (s : String) : Prop := Caseless.Free scriptTag nul s.toList

instance (s : String) : Decidable (TagFree s) := inferInstanceAs (Decidable (Caseless.Free _ _ _))

/-- Without its NULs the text has script tags in lower case only. -/
def LowerOnly (s : String) : Prop := ¬OtherCase scriptTag (s.toList.filter fun c => decide (nul ≠ c))

/-- A text keeps what stands before and behind it apart. -/
def Apart (lit : String) : Prop := Fenced scriptTag nul lit.toList

instance (lit : String) : Decidable (Apart lit) := inferInstanceAs (Decidable (Fenced _ _ _))

/-! ## Characters -/

section Characters

theorem toLower_cases (c : Char) :
    c.toLower = c ∨ 65 ≤ c.toNat ∧ c.toNat ≤ 90 ∧ c.toLower.toNat = c.toNat + 32 := by
  unfold Char.toLower
  split
  · rename_i h
    have hge : 65 ≤ c.toNat := by simpa using UInt32.le_iff_toNat_le.mp h.1
    have hle : c.toNat ≤ 90 := UInt32.le_iff_toNat_le.mp h.2
    refine .inr ⟨hge, hle, ?_⟩
    show (c.val + ('a'.val - 'A'.val)).toNat = _
    rw [UInt32.toNat_add]
    show (c.toNat + 32) % 2 ^ 32 = _
    omega
  · exact .inl rfl

theorem toLower_eq_lt_iff (c : Char) : c.toLower = '<' ↔ c = '<' := by
  constructor
  · intro h
    rcases toLower_cases c with heq | ⟨hge, -, heq⟩
    · rw [← heq, h]
    · rw [h] at heq
      have : '<'.toNat = 60 := rfl
      omega
  · rintro rfl
    rfl

theorem fence_of_isSpace (c : Char) (h : isSpace c = true) : Fence scriptTag nul c := by
  have hcode : ∀ p ∈ scriptTag, c.toLower ≠ p := by
    intro p hp heq
    have hlower : c.toLower = c := by
      refine (toLower_cases c).resolve_right fun hupper => ?_
      simp only [isSpace, Bool.or_eq_true, decide_eq_true_eq, List.mem_cons, List.not_mem_nil, or_false] at h
      omega
    rw [hlower] at heq
    have hnone : (scriptTag.any isSpace) = false := by decide
    rw [heq] at h
    exact List.any_eq_false.mp hnone p hp h
  refine ⟨fun hmem => hcode _ hmem rfl, ?_⟩
  rintro rfl
  exact absurd h (by decide)

theorem tagFree_of_forall {s : String} (h : ∀ c ∈ s.toList, c ≠ '<' ∧ c ≠ nul) : TagFree s :=
  free_of_notMem fun c hc => ⟨fun heq => (h c hc).1 ((toLower_eq_lt_iff c).mp heq), (h c hc).2⟩

theorem tagFree_toString (n : ℕ) : TagFree (toString n) := by
  refine tagFree_of_forall fun c hc => ?_
  rcases mem_toString_int (n := (n : ℤ)) hc with h | rfl
  · constructor <;> rintro rfl <;> exact absurd h (by decide)
  · decide

theorem tagFree_isoformat (t : Time) : TagFree (isoformat t) := by
  refine tagFree_of_forall fun c hc => ?_
  have h := mem_isoformat c hc
  constructor <;> rintro rfl <;> exact absurd h (by decide)

end Characters

/-! ## Texts -/

section Texts

theorem tagFree_front_iff {lit : String} (h : Apart lit) (s : String) : TagFree (lit ++ s) ↔ TagFree s := by
  rw [TagFree, String.toList_append]
  exact free_front_iff h _

theorem tagFree_back_iff {lit : String} (h : Apart lit) (s : String) : TagFree (s ++ lit) ↔ TagFree s := by
  rw [TagFree, String.toList_append]
  exact free_back_iff h _

theorem tagFree_between_iff {lit : String} (h : Apart lit) (s t : String) :
    TagFree (s ++ (lit ++ t)) ↔ TagFree s ∧ TagFree t := by
  rw [TagFree, String.toList_append, String.toList_append]
  exact free_fenced_iff h _ _

theorem mem_replaceChars {old new : List Char} {skip : ℕ} {cs : List Char} {c : Char}
    (h : c ∈ replaceChars old new skip cs) : c ∈ new ∨ c ∈ cs := by
  induction cs generalizing skip with
  | nil => cases skip <;> exact absurd h List.not_mem_nil
  | cons d cs ih =>
    cases skip with
    | succ skip => exact (ih h).imp_right (List.mem_cons_of_mem d)
    | zero =>
      rw [replaceChars] at h
      split_ifs at h
      · exact (List.mem_append.mp h).elim .inl fun h => (ih h).imp_right (List.mem_cons_of_mem d)
      · rcases List.mem_cons.mp h with rfl | h
        · exact .inr List.mem_cons_self
        · exact (ih h).imp_right (List.mem_cons_of_mem d)

theorem toList_clean (s : String) :
    (clean s).toList = replaceChars scriptTag ("&lt;".toList ++ scriptTag.tail) 0
    (s.toList.filter fun c => decide (nul ≠ c)) := by
  have hdrop : (replace (String.ofList [nul]) "" s).toList = s.toList.filter fun c => decide (nul ≠ c) := by
    rw [replace, String.toList_ofList, String.toList_ofList, replaceChars_singleton]
    induction s.toList with
    | nil => rfl
    | cons c cs ih =>
      rw [List.flatMap_cons, ih, List.filter_cons]
      by_cases hc : nul = c
      · rw [if_pos hc, if_neg (by rw [decide_eq_true_iff]; exact not_not.mpr hc)]
        rfl
      · rw [if_neg hc, if_pos (decide_eq_true hc)]
        rfl
  show (replace "<script" "&lt;script" (replace (String.ofList [nul]) "" s)).toList = _
  rw [replace, String.toList_ofList, hdrop]
  congr 1

/-- **What `clean` leaves**: script tags in another letter case, also those that come about when NULs are dropped. -/
theorem tagFree_clean_iff (s : String) : TagFree (clean s) ↔ LowerOnly s := by
  have hnul : nul ∉ (clean s).toList := by
    rw [toList_clean]
    intro hmem
    rcases mem_replaceChars hmem with hmem | hmem
    · exact absurd hmem (by decide)
    · exact of_decide_eq_true (List.mem_filter.mp hmem).2 rfl
  refine (and_iff_left hnul).trans (not_congr ?_)
  rw [toList_clean]
  exact occurs_replaceChars_iff (by decide) toLower_eq_lt_iff (by decide) ⟨'&', rfl, by decide⟩ _

end Texts

/-! ## Reports -/

/-- The texts that go through `clean`. -/
def cleanedTexts (request : InvestigationRequest) (assessment : Assessment) (evidence : List EvidenceItem) :
    List String :=
  [request.hostname, assessment.executiveSummary, assessment.conclusion] ++
    ((evidence.filter fun item => !item.ok).map fun item => textOr item.error "không rõ") ++
    (assessment.findings.flatMap fun finding => [finding.title, finding.evidence]) ++
    assessment.iocs.map Ioc.value ++
    ((assessment.findings.filter fun finding => decide (strip finding.recommendation ≠ "")).map
      Finding.recommendation) ++
    limitationLines assessment evidence

/-- The texts that come from outside as they are. -/
def rawTexts (request : InvestigationRequest) (assessment : Assessment) (evidence : List EvidenceItem) : List String :=
  [request.clientId] ++ (evidence.flatMap fun item => [item.evidenceId, item.tool]) ++
    (assessment.findings.flatMap fun finding => finding.id :: textOr finding.mitreId "N/A" :: finding.evidenceRefs) ++
    assessment.iocs.flatMap fun ioc => [ioc.type, ioc.evidenceRef]

/-- When a report has no script tag. -/
structure Harmless (request : InvestigationRequest) (assessment : Assessment) (evidence : List EvidenceItem) : Prop where
  raw : ∀ s ∈ rawTexts request assessment evidence, TagFree s
  cleaned : ∀ s ∈ cleanedTexts request assessment evidence, LowerOnly s

section Lines

variable {request : InvestigationRequest} {assessment : Assessment} {evidence : List EvidenceItem}

theorem tagFree_field_iff {front back : String} (hfront : Apart front) (hback : Apart back) (s : String) :
    TagFree (front ++ s ++ back) ↔ TagFree s := by
  rw [tagFree_back_iff hback, tagFree_front_iff hfront]

theorem tagFree_frontLines_iff : (∀ line ∈ frontLines request assessment, TagFree line) ↔
    LowerOnly request.hostname ∧ LowerOnly assessment.executiveSummary ∧ TagFree request.clientId := by
  have hhost : TagFree ("# Báo cáo điều tra máy " ++ clean request.hostname) ↔ LowerOnly request.hostname :=
    (tagFree_front_iff (by decide) _).trans (tagFree_clean_iff _)
  have hclient : TagFree ("- **Client ID:** `" ++ request.clientId ++ "`") ↔ TagFree request.clientId :=
    tagFree_field_iff (by decide) (by decide) _
  have hrange : TagFree ("- **Khoảng thời gian:** `" ++ isoformat request.timeRange.from_ ++ "` đến `" ++
      isoformat request.timeRange.to_ ++ "`") := by
    rw [tagFree_back_iff (by decide), String.append_assoc, String.append_assoc,
      tagFree_front_iff (by decide), tagFree_between_iff (by decide)]
    exact ⟨tagFree_isoformat _, tagFree_isoformat _⟩
  have hseverity : TagFree ("- **Mức độ:** `" ++ assessment.severity.name ++ "`") := by
    cases assessment.severity <;> decide
  have hconfidence : TagFree ("- **Độ tin cậy:** `" ++ assessment.confidence.name ++ "`") := by
    cases assessment.confidence <;> decide
  have hcount : TagFree ("- **Số phát hiện:** `" ++ toString assessment.findings.length ++ "`") :=
    (tagFree_field_iff (by decide) (by decide) _).mpr (tagFree_toString _)
  have hfixed : ∀ line ∈ ["---", "schema_version: dfir.report/1.0", "", "## 1. Tóm tắt",
      "## 2. Phạm vi và nguồn dữ liệu"], TagFree line := by decide
  rw [List.forall_mem_cons, List.forall_mem_cons, List.forall_mem_cons, List.forall_mem_cons,
    List.forall_mem_singleton] at hfixed
  obtain ⟨hrule, hschema, hempty, hsummary, hscope⟩ := hfixed
  unfold frontLines
  simp only [List.forall_mem_cons, hrule, hschema, hempty, hhost, hsummary, tagFree_clean_iff, hscope,
    hclient, hrange, hseverity, hconfidence, hcount, true_and, List.not_mem_nil, false_implies, implies_true, and_true]

theorem tagFree_countsLine (queries successful failed : ℕ) : TagFree (countsLine queries successful failed) := by
  have hline : ∀ {s t u : String}, TagFree s → TagFree t → TagFree u → TagFree ("DeepAgent đã thực hiện " ++ s ++
      " truy vấn MCP read-only: " ++ t ++ " thành công, " ++ u ++ " lỗi.") := by
    intro s t u hs ht hu
    rw [tagFree_back_iff (by decide), String.append_assoc, String.append_assoc, String.append_assoc,
      String.append_assoc, tagFree_front_iff (by decide), tagFree_between_iff (by decide),
      tagFree_between_iff (by decide)]
    exact ⟨hs, ht, hu⟩
  exact hline (tagFree_toString queries) (tagFree_toString successful) (tagFree_toString failed)

theorem tagFree_sourceLine_iff (item : EvidenceItem) : TagFree (sourceLine item) ↔
    TagFree item.evidenceId ∧ TagFree item.tool ∧ (item.ok = false → LowerOnly (textOr item.error "không rõ")) := by
  have hstatus : TagFree (if item.ok then "thành công" else "lỗi: " ++ clean (textOr item.error "không rõ")) ↔
      (item.ok = false → LowerOnly (textOr item.error "không rõ")) := by
    cases item.ok with
    | true => exact iff_of_true (show TagFree "thành công" by decide) (nomatch ·)
    | false => exact (tagFree_front_iff (by decide) _).trans ((tagFree_clean_iff _).trans (by simp))
  unfold sourceLine
  simp only [String.append_assoc]
  rw [tagFree_front_iff (by decide), tagFree_between_iff (by decide),
    tagFree_between_iff (by decide), hstatus]

theorem tagFree_timelineLine_iff (item : EvidenceItem) : TagFree (timelineLine item) ↔
    TagFree item.evidenceId ∧ TagFree item.tool := by
  have hstatus : TagFree (if item.ok then "thành công" else "thất bại") := by
    cases item.ok <;> decide
  have hline : ∀ {instant status : String}, TagFree instant → TagFree status → (TagFree ("- `" ++ instant ++ "` — `" ++
      item.evidenceId ++ "` — `" ++ item.tool ++ "` — " ++ status) ↔ TagFree item.evidenceId ∧ TagFree item.tool) := by
    intro instant status hinstant hstatus
    simp only [String.append_assoc]
    rw [tagFree_front_iff (by decide), tagFree_between_iff (by decide),
      tagFree_between_iff (by decide), tagFree_between_iff (by decide), and_iff_right hinstant,
      and_iff_left hstatus]
  exact hline (tagFree_isoformat item.collectedAt) hstatus

theorem tagFree_iocLine_iff (ioc : Ioc) : TagFree (iocLine ioc) ↔
    TagFree ioc.type ∧ LowerOnly ioc.value ∧ TagFree ioc.evidenceRef := by
  unfold iocLine
  rw [tagFree_back_iff (by decide)]
  simp only [String.append_assoc]
  rw [tagFree_front_iff (by decide), tagFree_between_iff (by decide),
    tagFree_between_iff (by decide), tagFree_clean_iff]

theorem tagFree_findingLines_iff (finding : Finding) : (∀ line ∈ findingLines finding, TagFree line) ↔
    (TagFree finding.id ∧ TagFree (textOr finding.mitreId "N/A") ∧ ∀ ref ∈ finding.evidenceRefs, TagFree ref) ∧
      LowerOnly finding.title ∧ LowerOnly finding.evidence := by
  have htitle : TagFree ("### " ++ finding.id ++ " — " ++ clean finding.title) ↔
      TagFree finding.id ∧ LowerOnly finding.title := by
    rw [String.append_assoc, String.append_assoc, tagFree_front_iff (by decide),
      tagFree_between_iff (by decide), tagFree_clean_iff]
  have hstatus : TagFree ("- **Phân loại:** `" ++ finding.status.name ++ "`") := by
    cases finding.status <;> decide
  have hseverity : TagFree ("- **Mức độ:** `" ++ finding.severity.name ++ "`") := by
    cases finding.severity <;> decide
  have hconfidence : TagFree ("- **Độ tin cậy:** `" ++ finding.confidence.name ++ "`") := by
    cases finding.confidence <;> decide
  have hrefs : TagFree (join ", " (finding.evidenceRefs.map fun ref => "`" ++ ref ++ "`")) ↔
      ∀ ref ∈ finding.evidenceRefs, TagFree ref := by
    refine (free_join_iff (show Apart ", " by decide) _).trans ?_
    rw [List.forall_mem_map]
    exact forall₂_congr fun ref _ => tagFree_field_iff (by decide) (by decide) ref
  have hevidence : TagFree ("- **Bằng chứng:** " ++
      join ", " (finding.evidenceRefs.map fun ref => "`" ++ ref ++ "`") ++ " — " ++ clean finding.evidence) ↔
      (∀ ref ∈ finding.evidenceRefs, TagFree ref) ∧ LowerOnly finding.evidence := by
    rw [String.append_assoc, String.append_assoc, tagFree_front_iff (by decide),
      tagFree_between_iff (by decide), tagFree_clean_iff, hrefs]
  have hmitre : TagFree ("- **MITRE ATT&CK:** `" ++ textOr finding.mitreId "N/A" ++ "`") ↔
      TagFree (textOr finding.mitreId "N/A") := tagFree_field_iff (by decide) (by decide) _
  have hempty : TagFree "" := by decide
  unfold findingLines
  simp only [List.forall_mem_cons, htitle, hempty, hstatus, hseverity, hconfidence, hevidence, hmitre,
    true_and, List.not_mem_nil, false_implies, implies_true, and_true]
  exact ⟨fun ⟨⟨hid, htitle⟩, ⟨hrefs, hevidence⟩, hmitre⟩ => ⟨⟨hid, hmitre, hrefs⟩, htitle, hevidence⟩,
    fun ⟨⟨hid, hmitre, hrefs⟩, htitle, hevidence⟩ => ⟨⟨hid, htitle⟩, ⟨hrefs, hevidence⟩, hmitre⟩⟩

theorem forall_linesOr_iff {default : String} (lines : List String) (h : TagFree default) :
    (∀ line ∈ linesOr lines default, TagFree line) ↔ ∀ line ∈ lines, TagFree line := by
  unfold linesOr
  split_ifs with hnil
  · rw [hnil, List.forall_mem_singleton]
    exact iff_of_true h fun _ hline => absurd hline List.not_mem_nil
  · rfl

theorem tagFree_backLines_iff : (∀ line ∈ backLines assessment evidence, TagFree line) ↔
    (∀ finding ∈ assessment.findings, ∀ line ∈ findingLines finding, TagFree line) ∧
      (∀ ioc ∈ assessment.iocs, TagFree (iocLine ioc)) ∧ (∀ item ∈ evidence, TagFree (timelineLine item)) ∧
      LowerOnly assessment.conclusion ∧
      (∀ finding ∈ assessment.findings, strip finding.recommendation ≠ "" → LowerOnly finding.recommendation) ∧
      ∀ s ∈ limitationLines assessment evidence, LowerOnly s := by
  have hfixed : ∀ line ∈ ["", "## 4. IoC", "## 5. Dòng thời gian", "## 6. Đánh giá và kết luận", "## 7. Khuyến nghị",
      "## 8. Hạn chế"], TagFree line := by decide
  simp only [List.forall_mem_cons] at hfixed
  obtain ⟨hempty, h4, h5, h6, h7, h8, -⟩ := hfixed
  have hfindings : ∀ line ∈ if assessment.findings = [] then
      ["Không có phát hiện đủ bằng chứng trong phạm vi dữ liệu đã thu thập."] else [], TagFree line := by
    split_ifs <;> decide +kernel
  have hitem : ∀ s, TagFree ("- " ++ s) ↔ TagFree s := tagFree_front_iff (by decide)
  have hiocs : (∀ line ∈ linesOr (assessment.iocs.map iocLine) "Không trích xuất được IoC có nguồn bằng chứng hợp lệ.",
      TagFree line) ↔ ∀ ioc ∈ assessment.iocs, TagFree (iocLine ioc) :=
    (forall_linesOr_iff _ (by decide)).trans List.forall_mem_map
  have htimeline : (∀ line ∈ linesOr ((evidence.insertionSort fun a b => a.collectedAt ≤ b.collectedAt).map timelineLine)
      "Không có mốc thu thập bằng chứng trong phạm vi điều tra.", TagFree line) ↔
      ∀ item ∈ evidence, TagFree (timelineLine item) := by
    refine (forall_linesOr_iff _ (by decide)).trans (List.forall_mem_map.trans ?_)
    exact forall_congr' fun item => imp_congr_left (List.perm_insertionSort _ _).mem_iff
  have hrecommendations : (∀ line ∈ linesOr ((recommendations assessment).map fun item => "- " ++ item)
      "- Tiếp tục giám sát và chỉ mở rộng điều tra khi có chỉ dấu mới.", TagFree line) ↔
      ∀ finding ∈ assessment.findings, strip finding.recommendation ≠ "" → LowerOnly finding.recommendation := by
    refine (forall_linesOr_iff _ (by decide +kernel)).trans (List.forall_mem_map.trans ?_)
    simp only [recommendations, List.mem_eraseDups, List.forall_mem_map, List.mem_filter, decide_eq_true_eq, hitem,
      tagFree_clean_iff, and_imp]
  have hlimitations : (∀ line ∈ linesOr ((limitationLines assessment evidence).map fun item => "- " ++ clean item)
      "- Không ghi nhận hạn chế bổ sung ngoài phạm vi thời gian đã chỉ định.", TagFree line) ↔
      ∀ s ∈ limitationLines assessment evidence, LowerOnly s := by
    refine (forall_linesOr_iff _ (by decide +kernel)).trans (List.forall_mem_map.trans ?_)
    exact forall₂_congr fun s _ => (hitem _).trans (tagFree_clean_iff s)
  have hflat : (∀ line ∈ assessment.findings.flatMap findingLines, TagFree line) ↔
      ∀ finding ∈ assessment.findings, ∀ line ∈ findingLines finding, TagFree line := by
    simp only [List.mem_flatMap, forall_exists_index, and_imp]
    exact ⟨fun h finding hmem line hline => h line finding hmem hline, fun h line finding hmem hline =>
      h finding hmem line hline⟩
  unfold backLines
  simp only [List.forall_mem_append, hflat, hiocs, htimeline, hrecommendations, hlimitations, List.forall_mem_cons,
    hempty, h4, h5, h6, h7, h8, tagFree_clean_iff, and_iff_right hfindings, true_and, List.not_mem_nil, false_implies,
    implies_true, and_true]

theorem tagFree_report_iff_lines : TagFree (buildMarkdownReport request assessment evidence) ↔
    (∀ line ∈ frontLines request assessment, TagFree line) ∧ (∀ item ∈ evidence, TagFree (sourceLine item)) ∧
      ∀ line ∈ backLines assessment evidence, TagFree line := by
  have hheading : TagFree "## 3. Phát hiện" := by decide
  have hempty : TagFree "" := by decide
  have hnewline : Apart "\n" := by decide
  have hcounts := tagFree_countsLine evidence.length (successes evidence) (evidence.length - successes evidence)
  rw [buildMarkdownReport_eq, tagFree_back_iff hnewline]
  refine (free_strip_iff (List.cons_ne_nil _ _) fence_of_isSpace _).trans ((free_join_iff hnewline _).trans ?_)
  show (∀ line ∈ upToSection3 request assessment evidence ++
    "## 3. Phát hiện" :: "" :: backLines assessment evidence, TagFree line) ↔ _
  unfold upToSection3
  simp only [List.forall_mem_append, List.forall_mem_cons, List.forall_mem_map, hcounts, hempty, hheading, true_and,
    List.not_mem_nil, false_implies, implies_true, and_true, and_assoc]

theorem forall_rawTexts_iff : (∀ s ∈ rawTexts request assessment evidence, TagFree s) ↔
    TagFree request.clientId ∧ (∀ item ∈ evidence, TagFree item.evidenceId ∧ TagFree item.tool) ∧
      (∀ finding ∈ assessment.findings, TagFree finding.id ∧ TagFree (textOr finding.mitreId "N/A") ∧
        ∀ ref ∈ finding.evidenceRefs, TagFree ref) ∧
      ∀ ioc ∈ assessment.iocs, TagFree ioc.type ∧ TagFree ioc.evidenceRef := by
  unfold rawTexts
  simp only [List.forall_mem_append, List.forall_mem_flatMap, List.forall_mem_cons, List.not_mem_nil, false_implies,
    implies_true, and_true, and_assoc]

theorem forall_cleanedTexts_iff : (∀ s ∈ cleanedTexts request assessment evidence, LowerOnly s) ↔
    LowerOnly request.hostname ∧ LowerOnly assessment.executiveSummary ∧ LowerOnly assessment.conclusion ∧
      (∀ item ∈ evidence, item.ok = false → LowerOnly (textOr item.error "không rõ")) ∧
      (∀ finding ∈ assessment.findings, LowerOnly finding.title ∧ LowerOnly finding.evidence) ∧
      (∀ ioc ∈ assessment.iocs, LowerOnly ioc.value) ∧
      (∀ finding ∈ assessment.findings, strip finding.recommendation ≠ "" → LowerOnly finding.recommendation) ∧
      ∀ s ∈ limitationLines assessment evidence, LowerOnly s := by
  unfold cleanedTexts
  simp only [List.forall_mem_append, List.forall_mem_flatMap, List.forall_mem_cons, List.forall_mem_map,
    List.mem_filter, Bool.not_eq_true', decide_eq_true_eq, and_imp, List.not_mem_nil, false_implies, implies_true,
    and_true, and_assoc]

/-- **A report has no script tag** exactly when the texts that are not cleaned have none, and those that are cleaned have
script tags in lower case only. -/
theorem tagFree_report_iff (request : InvestigationRequest) (assessment : Assessment) (evidence : List EvidenceItem) :
    TagFree (buildMarkdownReport request assessment evidence) ↔ Harmless request assessment evidence := by
  rw [tagFree_report_iff_lines, tagFree_frontLines_iff, tagFree_backLines_iff]
  simp only [tagFree_sourceLine_iff, tagFree_timelineLine_iff, tagFree_iocLine_iff, tagFree_findingLines_iff]
  constructor
  · rintro ⟨⟨hhost, hsummary, hclient⟩, hsources, hfindings, hiocs, -, hconclusion, hrecommendations, hlimitations⟩
    refine ⟨forall_rawTexts_iff.mpr ⟨hclient, fun item hitem => ?_, fun finding hfinding => (hfindings finding hfinding).1,
      fun ioc hioc => ?_⟩, forall_cleanedTexts_iff.mpr ⟨hhost, hsummary, hconclusion, fun item hitem =>
      (hsources item hitem).2.2, fun finding hfinding => (hfindings finding hfinding).2, fun ioc hioc => ?_,
      hrecommendations, hlimitations⟩⟩
    · exact ⟨(hsources item hitem).1, (hsources item hitem).2.1⟩
    · exact ⟨(hiocs ioc hioc).1, (hiocs ioc hioc).2.2⟩
    · exact (hiocs ioc hioc).2.1
  · rintro ⟨hraw, hcleaned⟩
    obtain ⟨hclient, hitems, hfindings, hiocs⟩ := forall_rawTexts_iff.mp hraw
    obtain ⟨hhost, hsummary, hconclusion, herrors, htexts, hvalues, hrecommendations, hlimitations⟩ :=
      forall_cleanedTexts_iff.mp hcleaned
    refine ⟨⟨hhost, hsummary, hclient⟩, fun item hitem => ?_, fun finding hfinding => ?_, fun ioc hioc => ?_, hitems,
      hconclusion, hrecommendations, hlimitations⟩
    · exact ⟨(hitems item hitem).1, (hitems item hitem).2, herrors item hitem⟩
    · exact ⟨hfindings finding hfinding, htexts finding hfinding⟩
    · exact ⟨(hiocs ioc hioc).1, hvalues ioc hioc, (hiocs ioc hioc).2⟩

/-- A summary with a tag in upper case. -/
def scriptAssessment : Assessment := ⟨.info, .low, "<SCRIPT>alert(1)</SCRIPT>", "c", [], [], []⟩

/-- **A tag in upper case** stays in the report. -/
theorem script_in_report : ¬TagFree (buildMarkdownReport breakingRequest scriptAssessment []) := by
  intro h
  have hsummary := (tagFree_frontLines_iff.mp (tagFree_report_iff_lines.mp h).1).2.1
  exact hsummary ⟨[], "<SCRIPT".toList, ">alert(1)</SCRIPT>".toList, by decide, by decide,
    by decide⟩

end Lines

end AssetInventory.DeepAgent
