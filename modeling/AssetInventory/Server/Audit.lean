import AssetInventory.Lib.HashChain
import AssetInventory.Lib.PyText
import AssetInventory.Server.Database

/-!
# The audit log

Each row of the log carries the hash of its contents and repeats the hash of the row before it.  A
request appends its rows in its own transaction: it reads the last row it sees, and inserts the next one.

* `contentHash`, `getLastHash`, `appendAudit`: the service that appends.
* `verifyChain`, `anchorHash`: what an administrator asks of the log.
* `verifyChain_eq`: the log is accepted exactly if it is linked and every hash is right.
* `payload_inj`: the text that is hashed determines what it says.

`sha256` stands for the hexadecimal digest of the UTF-8 encoding of a text.
-/

namespace AssetInventory.Server

open PyJson PyTime ReadCommitted HashChain

/-! ## Hashes -/

/-- `_fmt_ts`: `strftime("%Y-%m-%dT%H:%M:%S.%f")`. -/
def fmtTs (t : Time) : String :=
  let second := t / 1000000
  let (year, month, day) := civil (second / 86400)
  let s := second % 86400
  zeroPad 4 year ++ "-" ++ zeroPad 2 month ++ "-" ++ zeroPad 2 day ++ "T" ++
    zeroPad 2 (s / 3600) ++ ":" ++ zeroPad 2 (s / 60 % 60) ++ ":" ++ zeroPad 2 (s % 60) ++ "." ++
    zeroPad 6 (t % 1000000)

/-- A text or `null`, as JSON. -/
def dumpsOpt : Option String → List Char
  | none => "null".toList
  | some s => dumpsStr s

/-- What a row of the log says. -/
structure AuditEntry where
  action : String
  target : Option String
  actor : Option String
  ts : Time
  deriving DecidableEq

/-- `json.dumps({...}, sort_keys=True, ensure_ascii=False)` of an entry. -/
def AuditEntry.payload (e : AuditEntry) : String :=
  String.ofList ("\x7b\"action\": ".toList ++ dumpsStr e.action ++ ", \"actor\": ".toList ++
    dumpsOpt e.actor ++ ", \"target\": ".toList ++ dumpsOpt e.target ++ ", \"ts\": ".toList ++
    dumpsStr (fmtTs e.ts) ++ "\x7d".toList)

def AuditLog.entry (row : AuditLog) : AuditEntry := ⟨row.action, row.target, row.actor, row.ts⟩

/-- The hash before the first row. -/
def genesis : String := String.ofList (List.replicate 64 '0')

/-- `ORDER BY id`. -/
def orderById (rows : List AuditLog) : List AuditLog := rows.insertionSort fun a b => a.id ≤ b.id

/-- `get_last_hash`: the row with the highest id, and `row or genesis`. -/
def getLastHash (rows : List AuditLog) : String :=
  match (orderById rows).getLast? with
  | none => genesis
  | some row => if row.contentHash = "" then genesis else row.contentHash

def anchorHash (rows : List AuditLog) : String := getLastHash rows

section Sha

variable (sha256 : String → String)

def contentHash (e : AuditEntry) : String := sha256 e.payload

/-- The loop of `verify_chain`, at the row with this index. -/
def verifyRows : String → ℕ → List AuditLog → Bool × Option ℕ
  | _, _, [] => (true, none)
  | prev, i, row :: rows =>
    if row.prevHash ≠ prev ∨ row.contentHash ≠ contentHash sha256 row.entry then (false, some i)
    else verifyRows row.contentHash (i + 1) rows

def verifyChain (rows : List AuditLog) : Bool × Option ℕ :=
  verifyRows sha256 genesis 0 (orderById rows)

def appendAudit (action : String) (actor target ip : Option String) : Handler AuditLog := do
  let ts ← now
  let prev ← .select fun data => getLastHash data.audit
  let id ← .fresh
  let entry : AuditLog :=
    { id := id
      actor := actor
      action := action
      target := target
      ts := ts
      ip := ip
      prevHash := prev
      contentHash := contentHash sha256 ⟨action, target, actor, ts⟩
      requestId := none
      machineId := none }
  .insert (.audit entry)
  return entry

/-! ## What `verify_chain` accepts -/

def HashOk (row : AuditLog) : Prop := row.contentHash = contentHash sha256 row.entry

/-- The rows are linked from `h`, and their hashes are right. -/
structure Chained (h : String) (rows : List AuditLog) : Prop where
  linked : HashChain.Linked AuditLog.prevHash AuditLog.contentHash h rows
  hashes : ∀ row ∈ rows, HashOk sha256 row

variable {sha256} {h : String} {xs ys rows : List AuditLog}

theorem chained_append : Chained sha256 h (xs ++ ys) ↔
    Chained sha256 h xs ∧ Chained sha256 (tip AuditLog.contentHash h xs) ys := by
  constructor
  · intro hchain
    obtain ⟨hxs, hys⟩ := linked_append.mp hchain.linked
    exact ⟨⟨hxs, fun row hrow => hchain.hashes row (List.mem_append_left _ hrow)⟩,
      ⟨hys, fun row hrow => hchain.hashes row (List.mem_append_right _ hrow)⟩⟩
  · rintro ⟨hxs, hys⟩
    refine ⟨linked_append.mpr ⟨hxs.linked, hys.linked⟩, fun row hrow => ?_⟩
    rcases List.mem_append.mp hrow with hrow | hrow
    · exact hxs.hashes row hrow
    · exact hys.hashes row hrow

theorem verifyRows_eq (prev : String) (i : ℕ) (rows : List AuditLog) :
    verifyRows sha256 prev i rows = (true, none) ↔ Chained sha256 prev rows := by
  induction rows generalizing prev i with
  | nil => exact iff_of_true rfl ⟨trivial, fun _ h => absurd h List.not_mem_nil⟩
  | cons row rows ih =>
    rw [verifyRows]
    split
    · rename_i hbad
      refine iff_of_false (by simp) fun hchain => ?_
      rcases hbad with hprev | hhash
      · exact hprev hchain.linked.1
      · exact hhash (hchain.hashes row List.mem_cons_self)
    · rename_i hgood
      rw [not_or, not_not, not_not] at hgood
      rw [ih]
      constructor
      · intro hrest
        refine ⟨⟨hgood.1, hrest.linked⟩, fun r hr => ?_⟩
        rcases List.mem_cons.mp hr with rfl | hr
        · exact hgood.2
        · exact hrest.hashes r hr
      · exact fun hchain => ⟨hchain.linked.2, fun r hr => hchain.hashes r (List.mem_cons_of_mem _ hr)⟩

/-- **What is accepted**: the rows, in the order of their ids, are linked from the genesis hash and
carry the hashes of their contents. -/
theorem verifyChain_eq :
    verifyChain sha256 rows = (true, none) ↔ Chained sha256 genesis (orderById rows) :=
  verifyRows_eq _ _ _

/-! ## The last row -/

theorem orderById_perm (rows : List AuditLog) : (orderById rows).Perm rows :=
  List.perm_insertionSort _ _

theorem orderById_of_sorted (h : rows.Pairwise fun a b => a.id < b.id) : orderById rows = rows :=
  List.Pairwise.insertionSort_eq (h.imp fun hlt => Nat.le_of_lt hlt)

theorem getLastHash_eq_tip (hrows : rows.Pairwise fun a b => a.id < b.id)
    (hne : ∀ row ∈ rows, row.contentHash ≠ "") :
    getLastHash rows = tip AuditLog.contentHash genesis rows := by
  rw [getLastHash, orderById_of_sorted hrows, tip_eq]
  cases hlast : rows.getLast? with
  | none => rfl
  | some row =>
    have hrow := hne row (List.mem_of_getLast? hlast)
    simp [hrow]

end Sha

/-! ## The text that is hashed -/

/-- `datetime` goes from the year 1 to the year 9999. -/
def IsDatetime (t : Time) : Prop :=
  1 ≤ (civil (t / 1000000 / 86400)).1 ∧ (civil (t / 1000000 / 86400)).1 ≤ 9999

theorem dumpsOpt_append_inj {s t : Option String} {xs ys : List Char}
    (h : dumpsOpt s ++ xs = dumpsOpt t ++ ys) : s = t ∧ xs = ys := by
  cases s with
  | none =>
    cases t with
    | none => exact ⟨rfl, List.append_cancel_left h⟩
    | some t => simp [dumpsOpt, dumpsStr] at h
  | some s =>
    cases t with
    | none => simp [dumpsOpt, dumpsStr] at h
    | some t =>
      obtain ⟨rfl, hrest⟩ := dumpsStr_append_inj h
      exact ⟨rfl, hrest⟩

theorem clock_eq (s : ℤ) : s = s / 3600 * 3600 + s / 60 % 60 * 60 + s % 60 := by
  have hhour : s / 3600 = s / 60 / 60 := by omega
  omega

theorem fmtTs_inj {t u : Time} (ht : IsDatetime t) (hu : IsDatetime u) (h : fmtTs t = fmtTs u) :
    t = u := by
  have htrange := civil_range (t / 1000000 / 86400)
  have hurange := civil_range (u / 1000000 / 86400)
  unfold IsDatetime at ht hu
  have hchars := String.toList_inj.mpr h
  rcases htdate : civil (t / 1000000 / 86400) with ⟨tyear, tmonth, tday⟩
  rcases hudate : civil (u / 1000000 / 86400) with ⟨uyear, umonth, uday⟩
  rw [htdate] at ht htrange
  rw [hudate] at hu hurange
  dsimp only at ht hu htrange hurange
  simp only [fmtTs, htdate, hudate, String.toList_append, List.append_assoc] at hchars
  -- each field has its width, and what separates two fields is the same
  obtain ⟨hyear, hchars⟩ := zeroPad_append_inj (by decide) (by omega) (by omega) hchars
  obtain ⟨hmonth, hchars⟩ := zeroPad_append_inj (by decide) (by omega) (by omega)
    (List.append_cancel_left hchars)
  obtain ⟨hday, hchars⟩ := zeroPad_append_inj (by decide) (by omega) (by omega)
    (List.append_cancel_left hchars)
  obtain ⟨hhour, hchars⟩ := zeroPad_append_inj (by decide) (by omega) (by omega)
    (List.append_cancel_left hchars)
  obtain ⟨hminute, hchars⟩ := zeroPad_append_inj (by decide) (by omega) (by omega)
    (List.append_cancel_left hchars)
  obtain ⟨hsecond, hchars⟩ := zeroPad_append_inj (by decide) (by omega) (by omega)
    (List.append_cancel_left hchars)
  have hmicro := zeroPad_inj_int (by decide) (by omega) (by omega)
    (String.toList_inj.mp (List.append_cancel_left hchars))
  have hdate : t / 1000000 / 86400 = u / 1000000 / 86400 := by
    refine civil_inj ?_
    rw [htdate, hudate, hyear, hmonth, hday]
  have hclock : t / 1000000 % 86400 = u / 1000000 % 86400 := by
    rw [clock_eq (t / 1000000 % 86400), hhour, hminute, hsecond, ← clock_eq]
  have hseconds : t / 1000000 = u / 1000000 := by
    rw [← Int.mul_ediv_add_emod (t / 1000000) 86400, hdate, hclock, Int.mul_ediv_add_emod]
  rw [← Int.mul_ediv_add_emod t 1000000, hseconds, hmicro, Int.mul_ediv_add_emod]

/-- **The text that is hashed determines the entry.** -/
theorem payload_inj {x y : AuditEntry} (hx : IsDatetime x.ts) (hy : IsDatetime y.ts)
    (h : x.payload = y.payload) : x = y := by
  have hchars := String.ofList_injective h
  simp only [List.append_assoc] at hchars
  obtain ⟨haction, hchars⟩ := dumpsStr_append_inj (List.append_cancel_left hchars)
  obtain ⟨hactor, hchars⟩ := dumpsOpt_append_inj (List.append_cancel_left hchars)
  obtain ⟨htarget, hchars⟩ := dumpsOpt_append_inj (List.append_cancel_left hchars)
  obtain ⟨hts, -⟩ := dumpsStr_append_inj (List.append_cancel_left hchars)
  obtain ⟨xaction, xtarget, xactor, xts⟩ := x
  obtain ⟨yaction, ytarget, yactor, yts⟩ := y
  rw [AuditEntry.mk.injEq]
  exact ⟨haction, htarget, hactor, fmtTs_inj hx hy hts⟩

end AssetInventory.Server
