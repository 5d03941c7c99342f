import AssetInventory.Server.Audit

/-!
# The audit log under concurrency, and its anchor

Nearly every route appends to the audit log in its own transaction.  What it appends is chained to the
last row it sees, and it does not lock that row: of two transactions that overlap each may take the same
row for the last one.

* `OntoTip`: the condition on a commit, that its rows come after the last committed one and repeat its
  hash.
* `chain_accepted`: the log is accepted in every run whose commits meet the condition.
* `chain_forked`: two transactions that overlap.

The anchor is the hash of the last row.  That hash covers the contents of the row and not the hash before
it, so the anchor says nothing of the rows before the last.

* `anchorBinds_iff`: the anchor of an accepted log determines the log only if it is empty.
-/

namespace AssetInventory.Server

open PyTime ReadCommitted HashChain Interleaving

variable {sha256 : String → String}

/-! ## Transactions that append -/

/-- The arguments of `append_audit`. -/
structure AuditCall where
  action : String
  actor : Option String
  target : Option String
  ip : Option String

/-- A transaction: what it appends, and whether it commits. -/
structure AuditTransaction where
  calls : List AuditCall
  commits : Bool

/-- Append some entries. -/
def appendAll (sha256 : String → String) : List AuditCall → Handler Unit
  | [] => pure ()
  | c :: cs => do
    let _ ← appendAudit sha256 c.action c.actor c.target c.ip
    appendAll sha256 cs

/-- The program of a transaction. -/
def auditTransaction (sha256 : String → String) (x : AuditTransaction) : Handler Unit := do
  appendAll sha256 x.calls
  if x.commits then .publish [] else .undo

/-- The rows of the log that a transaction has written. -/
def auditRows (ws : List DataWrite) : List AuditLog :=
  ws.filterMap fun w =>
    match w with
    | .audit row => some row
    | _ => none

/-- **The condition on a commit**: the rows come after all committed ones, and the first of them repeats
the hash of the last committed one. -/
def OntoTip (s : Store Data RowKey Note) (pending : List DataWrite) (_ : List Note) : Prop :=
  ∀ first ∈ (auditRows pending).head?,
    (∀ row ∈ s.data.audit, row.id < first.id) ∧ first.prevHash = getLastHash s.data.audit

instance (s : Store Data RowKey Note) (pending : List DataWrite) (note : List Note) :
    Decidable (OntoTip s pending note) := by
  unfold OntoTip
  infer_instance

/-! ## The discipline -/

@[simp] theorem auditRows_map (rows : List AuditLog) :
    auditRows (rows.map DataWrite.audit) = rows := by
  induction rows with
  | nil => rfl
  | cons row rows ih => simp [auditRows] at ih ⊢

theorem audit_applyAll (rows : List AuditLog) (d : Data) :
    (applyAll (rows.map DataWrite.audit) d).audit = d.audit ++ rows := by
  induction rows generalizing d with
  | nil => exact (List.append_nil _).symm
  | cons row rows ih =>
    rw [List.map_cons, applyAll_cons, ih]
    exact List.append_assoc _ _ _

/-- The committed log: the ids rise and have been drawn, and the rows are chained. -/
structure ChainInv (sha256 : String → String) (s : Store Data RowKey Note) : Prop where
  sorted : s.data.audit.Pairwise fun a b => a.id < b.id
  drawn : ∀ row ∈ s.data.audit, row.id < s.drawn.length
  chained : Chained sha256 genesis s.data.audit

/-- The log and the supply of ids only grow. -/
def LogGrows (s t : Store Data RowKey Note) : Prop :=
  s.data.audit <+: t.data.audit ∧ s.drawn <+: t.drawn

theorem LogGrows.drawn_le {s t : Store Data RowKey Note} (h : LogGrows s t) :
    s.drawn.length ≤ t.drawn.length := h.2.length_le

/-- The transactions keep the chain and let the log grow. -/
def chainDiscipline (sha256 : String → String) : Discipline Data RowKey DataWrite Note where
  Inv := ChainInv sha256
  Rely _ := LogGrows
  Guar _ := LogGrows
  Allowed := OntoTip
  rely_refl _ _ := ⟨List.prefix_rfl, List.prefix_rfl⟩
  rely_trans _ _ _ _ h₁ h₂ := ⟨h₁.1.trans h₂.1, h₁.2.trans h₂.2⟩
  rely_of_guar _ _ _ _ _ h := h
  guar_refl _ _ := ⟨List.prefix_rfl, List.prefix_rfl⟩
  lock_ok _ _ row hinv _ := by
    cases row with
    | none => exact ⟨hinv, List.prefix_rfl, List.prefix_rfl⟩
    | some k => exact ⟨⟨hinv.sorted, hinv.drawn, hinv.chained⟩, List.prefix_rfl, List.prefix_rfl⟩
  release_ok _ _ hinv :=
    ⟨⟨hinv.sorted, hinv.drawn, hinv.chained⟩, List.prefix_rfl, List.prefix_rfl⟩
  unlock_ok _ _ _ hinv :=
    ⟨⟨hinv.sorted, hinv.drawn, hinv.chained⟩, List.prefix_rfl, List.prefix_rfl⟩
  draw_ok p s hinv := by
    have hlen : s.drawn.length ≤ (s.draw p).drawn.length := by simp [Store.draw]
    exact ⟨⟨hinv.sorted, fun row hrow => (hinv.drawn row hrow).trans_le hlen, hinv.chained⟩,
      List.prefix_rfl, List.prefix_append _ _⟩

/-- The rows that a transaction has appended: they have its own ids, and they are chained, as long as no
row has been committed that comes after the first of them. -/
structure Appended (sha256 : String → String) (rows : List AuditLog) (s : Store Data RowKey Note) :
    Prop where
  sorted : rows.Pairwise fun a b => a.id < b.id
  drawn : ∀ row ∈ rows, row.id < s.drawn.length
  hashes : ∀ row ∈ rows, HashOk sha256 row
  linked : ∀ first ∈ rows.head?, (∀ row ∈ s.data.audit, row.id < first.id) →
    HashChain.Linked AuditLog.prevHash AuditLog.contentHash first.prevHash rows

section Append

variable {p : TxId} {rows : List AuditLog} {s t : Store Data RowKey Note}

theorem Appended.mono (h : Appended sha256 rows s) (hst : LogGrows s t) : Appended sha256 rows t where
  sorted := h.sorted
  drawn row hrow := (h.drawn row hrow).trans_le hst.drawn_le
  hashes := h.hashes
  linked first hfirst hbefore :=
    h.linked first hfirst fun row hrow => hbefore row (hst.1.subset hrow)

theorem appended_nil (sha256 : String → String) (s : Store Data RowKey Note) :
    Appended sha256 [] s where
  sorted := List.Pairwise.nil
  drawn _ h := absurd h List.not_mem_nil
  hashes _ h := absurd h List.not_mem_nil
  linked _ h := absurd h (by simp)

theorem Appended.behind (h : Appended sha256 rows s) {first : AuditLog} (hfirst : first ∈ rows.head?)
    {n : ℕ} (hn : n < first.id) : ∀ row ∈ rows, n < row.id := by
  cases rows with
  | nil => cases hfirst
  | cons r rest =>
    cases hfirst
    intro row hrow
    rcases List.mem_cons.mp hrow with rfl | hrow
    · exact hn
    · exact hn.trans ((List.pairwise_cons.mp h.sorted).1 row hrow)

theorem Appended.sorted_append (h : Appended sha256 rows s) (hinv : ChainInv sha256 s)
    (hbefore : ∀ first ∈ rows.head?, ∀ row ∈ s.data.audit, row.id < first.id) :
    (s.data.audit ++ rows).Pairwise fun a b => a.id < b.id := by
  rw [List.pairwise_append]
  refine ⟨hinv.sorted, h.sorted, fun a ha b hb => ?_⟩
  cases hrows : rows.head? with
  | none =>
    rw [List.head?_eq_none_iff] at hrows
    rw [hrows] at hb
    cases hb
  | some first => exact h.behind hrows (hbefore first hrows a ha) b hb

theorem Appended.lastHash (hsha : ∀ x, sha256 x ≠ "") (h : Appended sha256 rows s)
    (hinv : ChainInv sha256 s)
    (hbefore : ∀ first ∈ rows.head?, ∀ row ∈ s.data.audit, row.id < first.id) :
    getLastHash (s.data.audit ++ rows) =
      tip AuditLog.contentHash (tip AuditLog.contentHash genesis s.data.audit) rows := by
  rw [getLastHash_eq_tip (h.sorted_append hinv hbefore), tip_append]
  intro row hrow
  have hok : HashOk sha256 row := by
    rcases List.mem_append.mp hrow with hrow | hrow
    · exact hinv.chained.hashes row hrow
    · exact h.hashes row hrow
  rw [show row.contentHash = _ from hok]
  exact hsha _

/-- **One append**: the new row is chained to what the transaction saw last. -/
theorem Appended.snoc (hsha : ∀ x, sha256 x ≠ "") (h : Appended sha256 rows s)
    (hinv : ChainInv sha256 s) {row : AuditLog} (hid : row.id < t.drawn.length)
    (hnew : s.drawn.length ≤ row.id) (hst : LogGrows s t) (hok : HashOk sha256 row)
    (hprev : row.prevHash = getLastHash (s.data.audit ++ rows)) :
    Appended sha256 (rows ++ [row]) t where
  sorted := by
    rw [List.pairwise_append]
    refine ⟨h.sorted, List.pairwise_singleton _ _, fun a ha b hb => ?_⟩
    rw [List.mem_singleton.mp hb]
    exact (h.drawn a ha).trans_le hnew
  drawn r hr := by
    rcases List.mem_append.mp hr with hr | hr
    · exact (h.drawn r hr).trans_le hst.drawn_le
    · rw [List.mem_singleton.mp hr]
      exact hid
  hashes r hr := by
    rcases List.mem_append.mp hr with hr | hr
    · exact h.hashes r hr
    · rw [List.mem_singleton.mp hr]
      exact hok
  linked first hfirst hbefore := by
    cases rows with
    | nil =>
      cases hfirst
      exact ⟨rfl, trivial⟩
    | cons r rest =>
      cases hfirst
      -- what is committed later was not in the way when the row was appended
      have hearlier : ∀ x ∈ s.data.audit, x.id < first.id :=
        fun x hx => hbefore x (hst.1.subset hx)
      have hlinked := h.linked first rfl hearlier
      rw [linked_append]
      refine ⟨hlinked, ?_, trivial⟩
      rw [hprev, h.lastHash hsha hinv fun first hfirst => by cases hfirst; exact hearlier]
      rfl

/-- **`append_audit`** in a transaction that has appended some rows. -/
theorem safe_appendAudit (hsha : ∀ x, sha256 x ≠ "") (c : AuditCall) (h : Appended sha256 rows s) :
    (appendAudit sha256 c.action c.actor c.target c.ip).Safe (chainDiscipline sha256) p
      (fun row ws t => ws = (rows ++ [row]).map DataWrite.audit ∧
        Appended sha256 (rows ++ [row]) t) (rows.map DataWrite.audit) s := by
  refine safe_answer Env.now fun t₁ e h₁ _ => ?_
  refine safe_select _ fun t₂ h₂ hinv => ?_
  refine safe_fresh fun t₃ h₃ _ => ?_
  refine safe_insert _ fun t₄ h₄ _ => safe_pure ?_
  have hrows : Appended sha256 rows t₂ := (h.mono h₁).mono h₂
  have hdrawn : t₃.drawn.length < t₄.drawn.length := by
    have hdraw : (t₃.draw p).drawn.length = t₃.drawn.length + 1 := by simp [Store.draw]
    have hle := h₄.drawn_le
    omega
  have hgrows : LogGrows t₂ t₄ :=
    ⟨h₃.1.trans h₄.1, (h₃.2.trans (List.prefix_append _ _)).trans h₄.2⟩
  refine ⟨by rw [List.map_append]; rfl, hrows.snoc hsha hinv hdrawn h₃.drawn_le hgrows rfl ?_⟩
  rw [← audit_applyAll]
  rfl

theorem safe_appendAll (hsha : ∀ x, sha256 x ≠ "") (cs : List AuditCall)
    (h : Appended sha256 rows s) : (appendAll sha256 cs).Safe (chainDiscipline sha256) p
      (fun _ ws t => ∃ rows', ws = rows'.map DataWrite.audit ∧ Appended sha256 rows' t)
      (rows.map DataWrite.audit) s := by
  induction cs generalizing rows s with
  | nil => exact ⟨rows, rfl, h⟩
  | cons c cs ih =>
    refine (safe_appendAudit hsha c h).bind fun row ws t => ?_
    rintro ⟨rfl, hrows⟩
    exact ih hrows

/-- **A commit under the condition** keeps the chain. -/
theorem chainInv_publish (hsha : ∀ x, sha256 x ≠ "") (h : Appended sha256 rows s)
    (hinv : ChainInv sha256 s) {note : List Note}
    (htip : OntoTip s (rows.map DataWrite.audit) note) :
    ChainInv sha256 (s.publish p (rows.map DataWrite.audit) note) ∧
      LogGrows s (s.publish p (rows.map DataWrite.audit) note) := by
  have haudit : (s.publish p (rows.map DataWrite.audit) note).data.audit = s.data.audit ++ rows :=
    audit_applyAll rows s.data
  rw [OntoTip, auditRows_map] at htip
  refine ⟨⟨?_, ?_, ?_⟩, ?_, List.prefix_rfl⟩
  · rw [haudit]
    exact h.sorted_append hinv fun first hfirst => (htip first hfirst).1
  · rw [haudit]
    intro row hrow
    rcases List.mem_append.mp hrow with hrow | hrow
    · exact hinv.drawn row hrow
    · exact h.drawn row hrow
  · rw [haudit, chained_append]
    refine ⟨hinv.chained, ?_, h.hashes⟩
    cases rows with
    | nil => trivial
    | cons first rest =>
      obtain ⟨hbefore, hprev⟩ := htip first rfl
      have htipHash := getLastHash_eq_tip hinv.sorted fun row hrow => by
        rw [show row.contentHash = _ from hinv.chained.hashes row hrow]
        exact hsha _
      rw [← htipHash, ← hprev]
      exact h.linked first rfl hbefore
  · rw [haudit]
    exact List.prefix_append _ _

theorem safe_auditTransaction (hsha : ∀ x, sha256 x ≠ "") (p : TxId) (x : AuditTransaction)
    (s : Store Data RowKey Note) :
    (auditTransaction sha256 x).Safe (chainDiscipline sha256) p anyEnd [] s := by
  refine (safe_appendAll hsha x.calls (appended_nil sha256 s)).bind fun _ ws t => ?_
  rintro ⟨rows, rfl, hrows⟩
  split
  · intro u htu hinv hallowed
    obtain ⟨hnext, hgrows⟩ := chainInv_publish (p := p) hsha (hrows.mono htu) hinv hallowed
    exact ⟨hnext, hgrows, trivial⟩
  · exact fun _ _ _ => trivial

end Append

/-! ## Runs -/

/-- The engine that runs such transactions. -/
abbrev auditStep (sha256 : String → String) :
    Engine Data RowKey DataWrite Env Note → Op AuditTransaction Env →
      Option (Engine Data RowKey DataWrite Env Note) :=
  Engine.step (auditTransaction sha256)

/-- **The chain survives** in every run, from a log that is in order, whose commits meet the
condition. -/
theorem chain_accepted (hsha : ∀ x, sha256 x ≠ "") {s : Store Data RowKey Note}
    (hs : ChainInv sha256 s) {g : Engine Data RowKey DataWrite Env Note}
    (hrun : Runs (auditStep sha256) (CommitsOnly OntoTip) (Engine.start s) g) :
    verifyChain sha256 g.store.data.audit = (true, none) := by
  have hinv : ChainInv sha256 g.store :=
    invariant_of_runs (R := chainDiscipline sha256)
      (fun p x s _ => safe_auditTransaction hsha p x s) (allSafe_start hs)
      (permits_of_commits (fun _ _ _ => trivial) hrun)
  rw [verifyChain_eq, orderById_of_sorted hinv.sorted]
  exact hinv.chained

/-! Two transactions, with one entry each. -/

/-- A digest that loses nothing. -/
def exampleSha (text : String) : String := "sha256:" ++ text

/-- A transaction that appends one entry. -/
def exampleAppend (commits : Bool) : AuditTransaction := ⟨[⟨"auth.login", none, none, none⟩], commits⟩

theorem exampleSha_ne (text : String) : exampleSha text ≠ "" := by
  intro h
  have hchars := congrArg String.toList h
  rw [exampleSha, String.toList_append] at hchars
  cases hchars

theorem chainInv_emptyStore (sha256 : String → String) : ChainInv sha256 emptyStore where
  sorted := List.Pairwise.nil
  drawn _ h := absurd h List.not_mem_nil
  chained := ⟨trivial, fun _ h => absurd h List.not_mem_nil⟩

/-- **The chain forks.**  Both transactions read the empty log before either has committed. -/
theorem chain_forked : ¬ ∀ sha256 : String → String, (∀ x, sha256 x ≠ "") →
    ∀ g, Runs (auditStep sha256) anyAction (Engine.start emptyStore) g →
      verifyChain sha256 g.store.data.audit = (true, none) := by
  intro h
  obtain ⟨g, hrun, hg⟩ := exists_runs_of_exec (G := anyAction) (auditStep exampleSha)
    (Engine.start emptyStore)
    ([.begin 0 (exampleAppend true), .begin 1 (exampleAppend true)] ++ statements 0 4 ++
      statements 1 4 ++ statements 0 1 ++ statements 1 1)
    (p := fun g => decide (verifyChain exampleSha g.store.data.audit = (false, some 1)))
    (by decide +kernel)
  have haccepted := h exampleSha exampleSha_ne g hrun
  rw [of_decide_eq_true hg] at haccepted
  cases haccepted

theorem chain_accepted_after_rollback :
    ∃ g, Runs (auditStep exampleSha) (CommitsOnly OntoTip) (Engine.start emptyStore) g ∧
      g.store.data.audit.length = 1 ∧ verifyChain exampleSha g.store.data.audit = (true, none) := by
  obtain ⟨g, hrun, hg⟩ := exists_runs_of_exec (G := CommitsOnly OntoTip) (auditStep exampleSha)
    (Engine.start emptyStore)
    ([.begin 0 (exampleAppend false)] ++ statements 0 5 ++ [.begin 1 (exampleAppend true)] ++
      statements 1 5)
    (p := fun g => decide (g.store.data.audit.length = 1)) (by decide +kernel)
  exact ⟨g, hrun, of_decide_eq_true hg,
    chain_accepted exampleSha_ne (chainInv_emptyStore exampleSha) hrun⟩

/-! ## The anchor -/

/-- The log is accepted. -/
def Verified (sha256 : String → String) (rows : List AuditLog) : Prop :=
  verifyChain sha256 rows = (true, none)

/-- What the log says, in order. -/
def entries (rows : List AuditLog) : List AuditEntry := (orderById rows).map AuditLog.entry

/-- The anchor of the log determines what an accepted log says. -/
def AnchorBinds (sha256 : String → String) (rows : List AuditLog) : Prop :=
  ∀ rows', Verified sha256 rows' → anchorHash rows' = anchorHash rows → entries rows' = entries rows

/-- No entry has the hash that stands before the first row. -/
def GenesisFree (sha256 : String → String) : Prop :=
  ∀ e, contentHash sha256 e ≠ "" ∧ contentHash sha256 e ≠ genesis

def rowOf (sha256 : String → String) (id : ℕ) (prev : String) (e : AuditEntry) : AuditLog where
  id := id
  actor := e.actor
  action := e.action
  target := e.target
  ts := e.ts
  ip := none
  prevHash := prev
  contentHash := contentHash sha256 e
  requestId := none
  machineId := none

/-- A log of these entries, each chained to the one before. -/
def logFrom (sha256 : String → String) : ℕ → String → List AuditEntry → List AuditLog
  | _, _, [] => []
  | id, prev, e :: es =>
    rowOf sha256 id prev e :: logFrom sha256 (id + 1) (contentHash sha256 e) es

theorem le_of_mem_logFrom {id : ℕ} {prev : String} {es : List AuditEntry} {row : AuditLog}
    (h : row ∈ logFrom sha256 id prev es) : id ≤ row.id := by
  induction es generalizing id prev with
  | nil => cases h
  | cons e es ih =>
    rcases List.mem_cons.mp h with rfl | h
    · exact le_refl _
    · exact (Nat.le_succ _).trans (ih h)

theorem sorted_logFrom (id : ℕ) (prev : String) (es : List AuditEntry) :
    (logFrom sha256 id prev es).Pairwise fun a b => a.id < b.id := by
  induction es generalizing id prev with
  | nil => exact List.Pairwise.nil
  | cons e es ih =>
    exact List.pairwise_cons.mpr ⟨fun row hrow => le_of_mem_logFrom hrow, ih _ _⟩

theorem chained_logFrom (id : ℕ) (prev : String) (es : List AuditEntry) :
    Chained sha256 prev (logFrom sha256 id prev es) := by
  induction es generalizing id prev with
  | nil => exact ⟨trivial, fun _ h => absurd h List.not_mem_nil⟩
  | cons e es ih =>
    have hrest := ih (id + 1) (contentHash sha256 e)
    refine ⟨⟨rfl, hrest.linked⟩, fun row hrow => ?_⟩
    rcases List.mem_cons.mp hrow with rfl | hrow
    · rfl
    · exact hrest.hashes row hrow

/-- **Any entries can be accepted.** -/
theorem verified_logFrom (es : List AuditEntry) :
    Verified sha256 (logFrom sha256 0 genesis es) := by
  rw [Verified, verifyChain_eq, orderById_of_sorted (sorted_logFrom _ _ _)]
  exact chained_logFrom _ _ _

theorem entries_logFrom (id : ℕ) (prev : String) (es : List AuditEntry) :
    entries (logFrom sha256 id prev es) = es := by
  rw [entries, orderById_of_sorted (sorted_logFrom _ _ _)]
  induction es generalizing id prev with
  | nil => rfl
  | cons e es ih =>
    rw [logFrom, List.map_cons, ih]
    rfl

/-- The hash that an anchor has for the last row. -/
def anchorOf (sha256 : String → String) (last : Option AuditEntry) : String :=
  match last with
  | none => genesis
  | some e => if contentHash sha256 e = "" then genesis else contentHash sha256 e

/-- **The anchor** of an accepted log depends on its last entry only. -/
theorem anchorHash_eq {rows : List AuditLog} (h : Verified sha256 rows) :
    anchorHash rows = anchorOf sha256 (entries rows).getLast? := by
  rw [anchorHash, getLastHash, entries, List.getLast?_map]
  cases hlast : (orderById rows).getLast? with
  | none => rfl
  | some row =>
    have hok : row.contentHash = contentHash sha256 row.entry :=
      (verifyChain_eq.mp h).hashes row (List.mem_of_getLast? hlast)
    rw [Option.map_some, anchorOf]
    dsimp only
    rw [hok]

/-- **What the anchor binds**: of an accepted log it determines the history exactly if there is none, and
no entry hashes to what stands before the first row. -/
theorem anchorBinds_iff {rows : List AuditLog} (hverified : Verified sha256 rows) :
    AnchorBinds sha256 rows ↔ rows = [] ∧ GenesisFree sha256 := by
  constructor
  · intro hbinds
    have hsame : ∀ es : List AuditEntry, anchorOf sha256 es.getLast? = anchorHash rows →
        es = entries rows := by
      intro es hanchor
      have hlog : Verified sha256 (logFrom sha256 0 genesis es) := verified_logFrom es
      have hentries : entries (logFrom sha256 0 genesis es) = es := entries_logFrom 0 genesis es
      rw [← hentries]
      refine hbinds _ hlog ?_
      rw [anchorHash_eq hlog, entries_logFrom, hanchor]
    rw [anchorHash_eq hverified] at hsame
    cases hentries : entries rows with
    | nil =>
      have hempty : rows = [] := by
        rw [entries, List.map_eq_nil_iff] at hentries
        exact (hentries ▸ orderById_perm rows).nil_eq.symm
      refine ⟨hempty, fun e => ?_⟩
      rw [hentries] at hsame
      constructor
      · intro hhash
        cases hsame [e] (by simp [anchorOf, hhash])
      · intro hhash
        cases hsame [e] (by simp [anchorOf, hhash])
    | cons e es =>
      -- the last entry alone, and the last entry twice, have the same anchor
      rw [hentries] at hsame
      obtain ⟨last, hlast⟩ : ∃ last, (e :: es).getLast? = some last :=
        ⟨_, List.getLast?_eq_some_getLast (List.cons_ne_nil _ _)⟩
      have hone := hsame [last] (by rw [hlast]; rfl)
      have htwo := hsame [last, last] (by rw [hlast]; rfl)
      rw [← hone] at htwo
      cases htwo
  · rintro ⟨rfl, hfree⟩ rows' hverified' hanchor
    rw [anchorHash_eq hverified', anchorHash_eq hverified] at hanchor
    cases hlast : (entries rows').getLast? with
    | none => exact List.getLast?_eq_none_iff.mp hlast
    | some e =>
      rw [hlast] at hanchor
      have hgenesis : contentHash sha256 e = genesis := by
        have hanchor' : (if contentHash sha256 e = "" then genesis else contentHash sha256 e) =
            genesis := hanchor
        rwa [if_neg (hfree e).1] at hanchor'
      exact absurd hgenesis (hfree e).2

/-- A login at the epoch. -/
def exampleLogin (actor : String) : AuditEntry := ⟨"auth.login", none, some actor, 0⟩

theorem exampleSha_injective : Function.Injective exampleSha := by
  intro x y h
  have hchars := congrArg String.toList h
  rw [exampleSha, exampleSha, String.toList_append, String.toList_append] at hchars
  exact String.toList_inj.mp (List.append_cancel_left hchars)

theorem anchorBinds_iff_login :
    ¬ AnchorBinds exampleSha (logFrom exampleSha 0 genesis [exampleLogin "u"]) := by
  intro h
  cases ((anchorBinds_iff (verified_logFrom _)).mp h).1

/-- **The history is rewritten under the same anchor**: a log of two logins, and the second of them
alone. -/
theorem anchor_of_rewritten : ¬ ∀ sha256 : String → String, Function.Injective sha256 →
    (∀ x y : AuditEntry, IsDatetime x.ts → IsDatetime y.ts → x.payload = y.payload → x = y) →
    ∀ rows rows', Verified sha256 rows → Verified sha256 rows' →
      anchorHash rows = anchorHash rows' → entries rows = entries rows' := by
  intro h
  have hboth : Verified exampleSha (logFrom exampleSha 0 genesis
      [exampleLogin "u", exampleLogin "v"]) := verified_logFrom _
  have hlast : Verified exampleSha (logFrom exampleSha 0 genesis [exampleLogin "v"]) :=
    verified_logFrom _
  have hsame := h exampleSha exampleSha_injective (fun _ _ => payload_inj) _ _ hboth hlast (by
    rw [anchorHash_eq hboth, anchorHash_eq hlast, entries_logFrom, entries_logFrom]
    rfl)
  rw [entries_logFrom, entries_logFrom] at hsame
  exact absurd (congrArg List.length hsame) (by decide)

end AssetInventory.Server
