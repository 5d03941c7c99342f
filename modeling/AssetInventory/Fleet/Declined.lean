import AssetInventory.Fleet.Writes

/-!
# Machines that were declined

A machine that an administrator has declined is decommissioned.  Heartbeats leave it so, and an enrollment
makes it wait for an administrator again.  But a heartbeat brings back whatever waits, and what a request
writes was decided by what it read, perhaps before the machine was declined.

* `declined`, `reenrolled`: what the history says of a machine.
* `LeavesDeclined`: the condition on a commit, that no machine which is out of service is put in service
  but by an approval, and that no rejection comes too late.
* `declined_of_runs`: in every run whose commits meet it, a machine that was declined is neither online
  nor offline until it is approved.
* `declined_comes_back`: a machine that is declined, enrolls and reports.
-/

namespace AssetInventory.Fleet

open PyJson PyTime Orm RowStore ReadCommitted Server Interleaving

/-- The last decision about a machine was to decline it.  The latest announcement comes first. -/
def declined (machine : Uuid) : List Note → Bool
  | [] => false
  | .approved m :: notes => if m = machine then false else declined machine notes
  | .declined m :: notes => if m = machine then true else declined machine notes
  | _ :: notes => declined machine notes

/-- A machine that was decommissioned has enrolled again since it was last approved. -/
def reenrolled (machine : Uuid) : List Note → Bool
  | [] => false
  | .approved m :: notes => if m = machine then false else reenrolled machine notes
  | .reenrolled m :: notes => if m = machine then true else reenrolled machine notes
  | _ :: notes => reenrolled machine notes

def statusOf (data : Data) (machine : Uuid) : Option MachineStatus :=
  (data.machines.get machine).map Machine.status

def MachineStatus.InService (status : MachineStatus) : Prop := status = .online ∨ status = .offline

instance : DecidablePred MachineStatus.InService := fun status =>
  inferInstanceAs (Decidable (status = .online ∨ status = .offline))

/-- No machine that was declined is in service. -/
def StaysDeclined (s : Store Data RowKey Note) : Prop :=
  ∀ machine, declined machine s.events = true →
    ∀ status ∈ statusOf s.data machine, ¬ status.InService

/-- A machine out of service: decommissioned, or waiting after it was. -/
def OutOfService (s : Store Data RowKey Note) (machine : Uuid) : Prop :=
  statusOf s.data machine = some .decommissioned ∨
    statusOf s.data machine = some .pending ∧ reenrolled machine s.events = true

instance (s : Store Data RowKey Note) (machine : Uuid) : Decidable (OutOfService s machine) :=
  inferInstanceAs (Decidable (statusOf s.data machine = some .decommissioned ∨
    statusOf s.data machine = some .pending ∧ reenrolled machine s.events = true))

/-- The status that a write gives a machine. -/
def DataWrite.newStatus : DataWrite → Option (Uuid × MachineStatus)
  | .machine id base cur => if cur.status = base.status then none else some (id, cur.status)
  | _ => none

/-- The write puts a machine in service that is out of service, and nobody has approved it. -/
def DataWrite.BringsBack (s : Store Data RowKey Note) (note : List Note) (w : DataWrite) : Prop :=
  ∃ x ∈ w.newStatus, x.2.InService ∧ .approved x.1 ∉ note ∧ OutOfService s x.1

/-- A rejection of a machine that is back in service, and nothing that takes it out. -/
def Note.ComesLate (s : Store Data RowKey Note) (pending : List DataWrite) : Note → Prop
  | .declined id => (∃ status ∈ statusOf s.data id, status.InService) ∧
      ∀ w ∈ pending, ∀ x ∈ w.newStatus, x.1 ≠ id
  | _ => False

/-- **The condition on a commit**: no machine that is out of service is put in service without an approval,
and a rejection of a machine that was decommissioned already does not find it back in service. -/
def LeavesDeclined (s : Store Data RowKey Note) (pending : List DataWrite) (note : List Note) : Prop :=
  (∀ w ∈ pending, ¬ w.BringsBack s note) ∧ ∀ n ∈ note, ¬ n.ComesLate s pending

instance (s : Store Data RowKey Note) (note : List Note) : DecidablePred (DataWrite.BringsBack s note) :=
  fun w => inferInstanceAs (Decidable
    (∃ x ∈ w.newStatus, x.2.InService ∧ .approved x.1 ∉ note ∧ OutOfService s x.1))

instance (s : Store Data RowKey Note) (pending : List DataWrite) :
    DecidablePred (Note.ComesLate s pending)
  | .declined id => inferInstanceAs (Decidable ((∃ status ∈ statusOf s.data id, status.InService) ∧
      ∀ w ∈ pending, ∀ x ∈ w.newStatus, x.1 ≠ id))
  | .enrolled _ _ => isFalse id
  | .reenrolled _ => isFalse id
  | .approved _ => isFalse id

instance (s : Store Data RowKey Note) (pending : List DataWrite) (note : List Note) :
    Decidable (LeavesDeclined s pending note) :=
  inferInstanceAs (Decidable ((∀ w ∈ pending, ¬ w.BringsBack s note) ∧
    ∀ n ∈ note, ¬ n.ComesLate s pending))

/-! ## The status after some writes -/

section Status

variable {d : Data} {w : DataWrite} {ws : List DataWrite} {id : Uuid} {status : MachineStatus}

def DataWrite.statusAfter (w : DataWrite) (id : Uuid) (status : MachineStatus) : MachineStatus :=
  match w.newStatus with
  | none => status
  | some (k, new) => if k = id then new else status

theorem statusOf_apply (h : statusOf d id = some status) :
    statusOf (Applies.apply w d) id = some (w.statusAfter id status) := by
  obtain ⟨row, hrow, rfl⟩ := Option.map_eq_some_iff.mp h
  cases w with
  | machine k base cur =>
    rw [statusOf, machines_machine]
    by_cases hk : id = k
    · subst hk
      rw [Table.get_modify_self, hrow]
      change some (pick base.status cur.status row.status) = _
      rw [DataWrite.statusAfter, DataWrite.newStatus, pick]
      by_cases hsame : cur.status = base.status
      · rw [if_pos hsame, if_pos hsame]
      · rw [if_neg hsame, if_neg hsame]
        exact congrArg some (if_pos rfl).symm
    · rw [Table.get_modify_of_ne _ _ hk, hrow]
      rw [DataWrite.statusAfter, DataWrite.newStatus]
      by_cases hsame : cur.status = base.status
      · rw [if_pos hsame]
        rfl
      · rw [if_neg hsame]
        exact congrArg some (if_neg (Ne.symm hk)).symm
  | newMachine k new =>
    rw [statusOf, machines_newMachine, Table.get_insert_of_get hrow]
    rfl
  | _ => exact h

theorem statusOf_applyAll {P : MachineStatus → Prop}
    (hws : ∀ w ∈ ws, ∀ x ∈ w.newStatus, x.1 = id → P x.2) (h : statusOf d id = some status)
    (hP : P status) : ∃ status', statusOf (applyAll ws d) id = some status' ∧ P status' := by
  refine applyAll_invariant (P := fun d => ∃ status', statusOf d id = some status' ∧ P status')
    ?_ ⟨status, h, hP⟩
  rintro w hw d' ⟨st, hst, hPst⟩
  refine ⟨_, statusOf_apply hst, ?_⟩
  rw [DataWrite.statusAfter]
  cases hnew : w.newStatus with
  | none => exact hPst
  | some x =>
    dsimp only
    split
    · rename_i hid
      exact hws w hw x hnew hid
    · exact hPst

theorem statusOf_applyAll_of_none (hws : ∀ w ∈ ws, ∀ x ∈ w.newStatus, x.1 ≠ id)
    (h : statusOf d id = some status) : statusOf (applyAll ws d) id = some status := by
  obtain ⟨status', hstatus', rfl⟩ := statusOf_applyAll (P := fun st => st = status)
    (fun w hw x hx hid => absurd hid (hws w hw x hx)) h rfl
  exact hstatus'

end Status

/-! ## What the history says -/

/-- No decision is announced. -/
def NoDecision (note : List Note) : Prop :=
  ∀ machine, .approved machine ∉ note ∧ .declined machine ∉ note

section History

variable {machine : Uuid} {note events : List Note}

theorem declined_append (h : NoDecision note) :
    declined machine (note ++ events) = declined machine events := by
  induction note with
  | nil => rfl
  | cons n note ih =>
    have hnote : NoDecision note := fun m =>
      ⟨fun hm => (h m).1 (List.mem_cons_of_mem _ hm), fun hm => (h m).2 (List.mem_cons_of_mem _ hm)⟩
    cases n with
    | approved m => exact absurd List.mem_cons_self (h m).1
    | declined m => exact absurd List.mem_cons_self (h m).2
    | enrolled t m => exact ih hnote
    | reenrolled m => exact ih hnote

theorem reenrolled_append (h : NoDecision note)
    (hre : .reenrolled machine ∈ note ∨ reenrolled machine events = true) :
    reenrolled machine (note ++ events) = true := by
  induction note with
  | nil => exact hre.resolve_left List.not_mem_nil
  | cons n note ih =>
    have hnote : NoDecision note := fun m =>
      ⟨fun hm => (h m).1 (List.mem_cons_of_mem _ hm), fun hm => (h m).2 (List.mem_cons_of_mem _ hm)⟩
    cases n with
    | approved m => exact absurd List.mem_cons_self (h m).1
    | declined m => exact absurd List.mem_cons_self (h m).2
    | enrolled t m =>
      refine ih hnote (hre.imp_left fun hmem => ?_)
      exact (List.mem_cons.mp hmem).resolve_left fun h => by cases h
    | reenrolled m =>
      rw [List.cons_append, reenrolled]
      split
      · rfl
      · rename_i hne
        refine ih hnote (hre.imp_left fun hmem => ?_)
        exact (List.mem_cons.mp hmem).resolve_left fun h => hne (Note.reenrolled.inj h).symm

theorem history_cons_of_ne {id : Uuid} {n : Note} (hn : n = .approved id ∨ n = .declined id)
    (hid : machine ≠ id) (events : List Note) : declined machine
    (n :: events) = declined machine events ∧
      reenrolled machine (n :: events) = reenrolled machine events := by
  rcases hn with rfl | rfl
  · exact ⟨if_neg (Ne.symm hid), if_neg (Ne.symm hid)⟩
  · exact ⟨if_neg (Ne.symm hid), rfl⟩

end History

/-! ## Commits -/

/-- The machine is there, not lost, and pending only if it has enrolled again. -/
def Settled (machine : Uuid) (s : Store Data RowKey Note) : Prop :=
  ∃ status, statusOf s.data machine = some status ∧ status ≠ .lost ∧
    (status = .pending → reenrolled machine s.events = true)

/-- The machines that were declined are out of service. -/
def DeclinedOut (s : Store Data RowKey Note) : Prop :=
  ∀ machine, declined machine s.events = true → OutOfService s machine

/-- The machines are still there, and those that were settled are. -/
structure MachinesStay (s t : Store Data RowKey Note) : Prop where
  there : ∀ machine, (statusOf s.data machine).isSome → (statusOf t.data machine).isSome
  settled : ∀ machine, Settled machine s → Settled machine t

theorem MachinesStay.refl (s : Store Data RowKey Note) : MachinesStay s s :=
  ⟨fun _ h => h, fun _ h => h⟩

theorem MachinesStay.trans {s t u : Store Data RowKey Note} (h : MachinesStay s t)
    (h' : MachinesStay t u) : MachinesStay s u :=
  ⟨fun m hm => h'.there m (h.there m hm), fun m hm => h'.settled m (h.settled m hm)⟩

theorem MachinesStay.of_lock {s t : Store Data RowKey Note} {p : TxId} {row : Option RowKey}
    (h : MachinesStay (s.lock p row) t) : MachinesStay s t := by
  cases row with
  | none => exact h
  | some k => exact ⟨h.there, h.settled⟩

/-- What is written but for decisions: a machine goes in service, or has enrolled again and waits. -/
def Ordinary (note : List Note) (w : DataWrite) : Prop :=
  ∀ x ∈ w.newStatus, x.2.InService ∨ x.2 = .pending ∧ .reenrolled x.1 ∈ note

section Commits

variable {s : Store Data RowKey Note} {p : TxId} {ws : List DataWrite} {note : List Note}

theorem isSome_statusOf_applyAll {d : Data} {machine : Uuid} (h : (statusOf d machine).isSome) :
    (statusOf (applyAll ws d) machine).isSome := by
  obtain ⟨status, hstatus⟩ := Option.isSome_iff_exists.mp h
  obtain ⟨status', hstatus', -⟩ := statusOf_applyAll (P := fun _ => True)
    (fun _ _ _ _ _ => trivial) hstatus trivial
  rw [hstatus']
  rfl

/-- **A commit without a decision** leaves the declined machines out of service. -/
theorem publish_ordinary (hnote : NoDecision note) (hinv : DeclinedOut s)
    (hws : ∀ w ∈ ws, Ordinary note w) (hallowed : LeavesDeclined s ws note) :
    DeclinedOut (s.publish p ws note) ∧ MachinesStay s (s.publish p ws note) := by
  refine ⟨fun machine hm => ?_, fun _ => isSome_statusOf_applyAll, ?_⟩
  · have hout : OutOfService s machine := hinv machine ((declined_append hnote).symm.trans hm)
    have hkeep : ∀ w ∈ ws, ∀ x ∈ w.newStatus, x.1 = machine → x.2 = .decommissioned ∨
        x.2 = .pending ∧ reenrolled machine (note ++ s.events) = true := by
      rintro w hw x hx rfl
      rcases hws w hw x hx with hin | ⟨hpending, hre⟩
      · exact absurd ⟨x, hx, hin, (hnote x.1).1, hout⟩ (hallowed.1 w hw)
      · exact Or.inr ⟨hpending, reenrolled_append hnote (Or.inl hre)⟩
    have hstart : ∃ status, statusOf s.data machine = some status ∧ (status = .decommissioned ∨
        status = .pending ∧ reenrolled machine (note ++ s.events) = true) := by
      rcases hout with h | ⟨h, hre⟩
      · exact ⟨_, h, Or.inl rfl⟩
      · exact ⟨_, h, Or.inr ⟨rfl, reenrolled_append hnote (Or.inr hre)⟩⟩
    obtain ⟨status, hstatus, hP⟩ := hstart
    obtain ⟨status', hstatus', hP'⟩ := statusOf_applyAll (P := fun st => st = .decommissioned ∨
      st = .pending ∧ reenrolled machine (note ++ s.events) = true) hkeep hstatus hP
    rcases hP' with rfl | ⟨rfl, hre⟩
    · exact Or.inl hstatus'
    · exact Or.inr ⟨hstatus', hre⟩
  · rintro machine ⟨status, hstatus, hlost, hpending⟩
    refine statusOf_applyAll (P := fun st => st ≠ .lost ∧
      (st = .pending → reenrolled machine (note ++ s.events) = true)) ?_ hstatus
      ⟨hlost, fun h => reenrolled_append hnote (Or.inr (hpending h))⟩
    rintro w hw x hx rfl
    rcases hws w hw x hx with (h | h) | ⟨h, hre⟩
    · rw [h]
      exact ⟨by decide, fun h => by cases h⟩
    · rw [h]
      exact ⟨by decide, fun h => by cases h⟩
    · rw [h]
      exact ⟨by decide, fun _ => reenrolled_append hnote (Or.inl hre)⟩

variable {id : Uuid}

/-- **A decision** about a machine leaves the others as they are. -/
theorem publish_decision {n : Note} (hn : n = .approved id ∨ n = .declined id)
    (hinv : DeclinedOut s) (hws : ∀ w ∈ ws, ∀ x ∈ w.newStatus, x.1 = id)
    (hout : declined id (n :: s.events) = true → OutOfService (s.publish p ws [n]) id)
    (hsettled : Settled id s → Settled id (s.publish p ws [n])) :
    DeclinedOut (s.publish p ws [n]) ∧ MachinesStay s (s.publish p ws [n]) := by
  have hother : ∀ machine status, machine ≠ id → statusOf s.data machine = some status →
      statusOf (applyAll ws s.data) machine = some status := fun machine status hid h =>
    statusOf_applyAll_of_none (fun w hw x hx hx' => hid (hx'.symm.trans (hws w hw x hx))) h
  refine ⟨fun machine hm => ?_, fun _ => isSome_statusOf_applyAll, fun machine hm => ?_⟩
  · by_cases hid : machine = id
    · subst hid
      exact hout hm
    · obtain ⟨hdeclined, hre⟩ := history_cons_of_ne hn hid s.events
      rcases hinv machine (hdeclined.symm.trans hm) with h | ⟨h, hre'⟩
      · exact Or.inl (hother _ _ hid h)
      · exact Or.inr ⟨hother _ _ hid h, hre.trans hre'⟩
  · by_cases hid : machine = id
    · subst hid
      exact hsettled hm
    · obtain ⟨status, hstatus, hlost, hpending⟩ := hm
      exact ⟨status, hother _ _ hid hstatus, hlost, fun h =>
        (history_cons_of_ne hn hid s.events).2.trans (hpending h)⟩

variable {base cur : Machine}

theorem statusOf_machine {d : Data}
    (hthere : (statusOf d id).isSome) (hchange : cur.status ≠ base.status) :
    statusOf (applyAll [DataWrite.machine id base cur] d) id = some cur.status := by
  obtain ⟨status, hstatus⟩ := Option.isSome_iff_exists.mp hthere
  rw [applyAll_cons, applyAll_nil, statusOf_apply hstatus, DataWrite.statusAfter, DataWrite.newStatus,
    if_neg hchange]
  exact congrArg some (if_pos rfl)

theorem newStatus_machine :
    ∀ w ∈ [DataWrite.machine id base cur], ∀ x ∈ w.newStatus, x = (id, cur.status) := by
  intro w hw x hx
  rw [List.mem_singleton.mp hw, DataWrite.newStatus] at hx
  split at hx
  · cases hx
  · exact (Option.some.inj hx).symm

theorem publish_approved (hinv : DeclinedOut s)
    (hbase : base.status = .pending) (hcur : cur.status.InService) :
    let t := s.publish p [DataWrite.machine id base cur] [.approved id]
    DeclinedOut t ∧ MachinesStay s t := by
  refine publish_decision (Or.inl rfl) hinv (fun w hw x hx => by rw [newStatus_machine w hw x hx])
    (fun h => ?_) fun hsettled => ?_
  · rw [declined, if_pos rfl] at h
    cases h
  · obtain ⟨status, hstatus, -⟩ := hsettled
    have hchange : cur.status ≠ base.status := by
      rw [hbase]
      rcases hcur with h | h
      · rw [h]
        decide
      · rw [h]
        decide
    refine ⟨cur.status, statusOf_machine (by rw [hstatus]; rfl) hchange, ?_, fun h => ?_⟩
    · rcases hcur with h | h
      · rw [h]
        decide
      · rw [h]
        decide
    · exact absurd (h.trans hbase.symm) hchange

/-- The rejection of a machine that was not decommissioned when it was read. -/
theorem publish_declined (hinv : DeclinedOut s)
    (hthere : (statusOf s.data id).isSome) (hbase : base.status ≠ .decommissioned)
    (hcur : cur.status = .decommissioned) :
    let t := s.publish p [DataWrite.machine id base cur] [.declined id]
    DeclinedOut t ∧ MachinesStay s t := by
  have hstatus := statusOf_machine hthere (hcur.trans_ne hbase.symm)
  rw [hcur] at hstatus
  exact publish_decision (Or.inr rfl) hinv (fun w hw x hx => by rw [newStatus_machine w hw x hx])
    (fun _ => Or.inl hstatus) fun _ => ⟨_, hstatus, by decide, fun h => by cases h⟩

/-- The rejection of a machine that was decommissioned when it was read: it still is, or it has enrolled
again. -/
theorem publish_declined_again (hinv : DeclinedOut s) (hsettled : Settled id s)
    (hws : ∀ w ∈ ws, w.newStatus = none) (hallowed : LeavesDeclined s ws [.declined id]) :
    DeclinedOut (s.publish p ws [.declined id]) ∧ MachinesStay s (s.publish p ws [.declined id]) := by
  have hnone : ∀ {P : Uuid × MachineStatus → Prop}, ∀ w ∈ ws, ∀ x ∈ w.newStatus, P x := by
    intro P w hw x hx
    rw [hws w hw] at hx
    cases hx
  obtain ⟨status, hstatus, hlost, hpending⟩ := hsettled
  have hafter : statusOf (applyAll ws s.data) id = some status :=
    statusOf_applyAll_of_none hnone hstatus
  have hin : ¬ status.InService := fun hin =>
    hallowed.2 _ List.mem_cons_self ⟨⟨status, hstatus, hin⟩, hnone⟩
  refine publish_decision (Or.inr rfl) hinv hnone (fun _ => ?_) fun _ =>
    ⟨status, hafter, hlost, hpending⟩
  cases status with
  | online => exact absurd (Or.inl rfl) hin
  | offline => exact absurd (Or.inr rfl) hin
  | lost => exact absurd rfl hlost
  | decommissioned => exact Or.inl hafter
  | pending => exact Or.inr ⟨hafter, hpending rfl⟩

end Commits

/-! ## The routes -/

/-- The machines that were declined are out of service; machines stay. -/
def declinedDiscipline : Discipline Data RowKey DataWrite Note where
  Inv := DeclinedOut
  Rely _ := MachinesStay
  Guar _ := MachinesStay
  Allowed := LeavesDeclined
  rely_refl _ := .refl
  rely_trans _ _ _ _ h h' := h.trans h'
  rely_of_guar _ _ _ _ _ h := h
  guar_refl _ := .refl
  lock_ok _ _ row hinv _ := by
    cases row with
    | none => exact ⟨hinv, fun _ h => h, fun _ h => h⟩
    | some k => exact ⟨hinv, fun _ h => h, fun _ h => h⟩
  release_ok _ _ hinv := ⟨hinv, fun _ h => h, fun _ h => h⟩
  unlock_ok _ _ _ hinv := ⟨hinv, fun _ h => h, fun _ h => h⟩
  draw_ok _ _ hinv := ⟨hinv, fun _ h => h, fun _ h => h⟩

section Routes

variable {p : TxId} {s : Store Data RowKey Note} {α : Type}

theorem safe_of_ordinary {note : List Note} (hnote : NoDecision note) {m : Handler α} {C : α → Prop}
    {ws : List DataWrite} (hm : m.Only (Ordinary note) (note = ·) C)
    (hws : ∀ w ∈ ws, Ordinary note w) :
    m.Safe declinedDiscipline p (fun a ws _ => C a ∧ ∀ w ∈ ws, Ordinary note w) ws s := by
  refine hm.safe_of_all ?_ hws
  rintro ws t _ rfl hinv hws hallowed
  exact publish_ordinary hnote hinv hws hallowed

theorem ordinary_machine {cur base : Machine} {note : List Note} {id : Uuid}
    (h : cur.status = base.status ∨ cur.status.InService ∨
      cur.status = .pending ∧ .reenrolled id ∈ note) : Ordinary note (.machine id base cur) := by
  intro x hx
  rw [DataWrite.newStatus] at hx
  split at hx
  · cases hx
  · rename_i hchange
    obtain rfl := Option.some.inj hx
    exact h.resolve_left hchange

theorem ordinary_of_newStatus {note : List Note} {w : DataWrite} (h : w.newStatus = none) :
    Ordinary note w := by
  intro x hx
  rw [h] at hx
  cases hx

theorem ordinary_of_aside (note : List Note) (w : DataWrite) (h : w.Aside) : Ordinary note w := by
  refine ordinary_of_newStatus ?_
  cases w <;> first | rfl | exact h.elim

theorem noDecision_nil : NoDecision [] := fun _ => ⟨List.not_mem_nil, List.not_mem_nil⟩

/-- What a decision relies on: the machine as it was read is there, and settled if it was
decommissioned. -/
def MachineKnown (id : Uuid) (m : Machine) (s : Store Data RowKey Note) : Prop :=
  (statusOf s.data id).isSome ∧ (m.status = .decommissioned → Settled id s)

theorem MachineKnown.stay {id : Uuid} {m : Machine} {t : Store Data RowKey Note}
    (h : MachineKnown id m s) (hst : MachinesStay s t) : MachineKnown id m t :=
  ⟨hst.there id h.1, fun hm => hst.settled id (h.2 hm)⟩

theorem safe_getMachineInScope (id : Uuid) (user : User) (refusal : String) :
    (getMachineInScope id user refusal).Safe declinedDiscipline p
      (fun r ws t => ws = [] ∧ ∀ m, r = .ok m → MachineKnown id m t) [] s := by
  refine safe_select _ fun t _ _ => safe_select _ fun u _ _ => ?_
  cases hm : (applyAll ([] : List DataWrite) u.data).machines.get id with
  | none =>
    rw [Store.view, hm]
    exact safe_pure ⟨rfl, fun m h => by cases h⟩
  | some m =>
    rw [Store.view, hm]
    dsimp only
    split
    · refine safe_pure ⟨rfl, ?_⟩
      rintro _ ⟨⟩
      have hstatus : statusOf u.data id = some m.status := by
        rw [applyAll_nil] at hm
        rw [statusOf, hm, Option.map_some]
      refine ⟨by rw [hstatus]; rfl, fun hdecommissioned => ⟨_, hstatus, ?_, fun h => ?_⟩⟩
      · rw [hdecommissioned]
        decide
      · rw [hdecommissioned] at h
        cases h
    · exact safe_pure ⟨rfl, fun m h => by cases h⟩

theorem safe_requireAdmin {f : Except HttpError (Uuid × User) → Handler (Except HttpError α)}
    (caller : Option Uuid) (herror : ∀ e, f (.error e) = pure (.error e))
    (hok : ∀ x t, (f (.ok x)).Safe declinedDiscipline p anyEnd [] t) :
    (requireAdmin caller >>= f).Safe declinedDiscipline p anyEnd [] s := by
  refine (stable_of_pending _ p fun ws => ws = []).bind (A := fun _ => False) (fun _ _ _ h => h.elim)
    (only_requireAdmin caller) rfl fun r ws t _ hws => ?_
  subst hws
  cases r with
  | error e =>
    rw [herror]
    exact safe_pure trivial
  | ok x => exact hok x t

/-- **A rejection**, or a decommissioning. -/
theorem safe_decline {base cur : Machine} {id : Uuid} (hknown : MachineKnown id base s)
    (hcur : cur.status = .decommissioned) (result : α) :
    (do
      flushMachine id base cur
      .publish [.declined id]
      return result : Handler α).Safe declinedDiscipline p anyEnd [] s := by
  by_cases hbase : base.status = .decommissioned
  · -- the status is not written, so what is stored decides
    by_cases hsame : base = cur
    · rw [flushMachine, if_pos hsame]
      refine safe_publish _ fun t hst hinv hallowed => ?_
      obtain ⟨hinv', hguar⟩ := publish_declined_again (p := p) hinv ((hknown.stay hst).2 hbase)
        (List.forall_mem_nil _) hallowed
      exact ⟨hinv', hguar, safe_pure trivial⟩
    · rw [flushMachine, if_neg hsame]
      refine safe_update _ _ fun t hst _ _ => safe_publish _ fun u htu hinv hallowed => ?_
      have hnone : ∀ w ∈ [DataWrite.machine id base cur], w.newStatus = none :=
        List.forall_mem_singleton.mpr (if_pos (hcur.trans hbase.symm))
      obtain ⟨hinv', hguar⟩ := publish_declined_again (p := p) hinv
        ((hknown.stay (hst.trans htu.of_lock)).2 hbase) hnone hallowed
      exact ⟨hinv', hguar, safe_pure trivial⟩
  · have hsame : base ≠ cur := by
      rintro rfl
      exact hbase hcur
    rw [flushMachine, if_neg hsame]
    refine safe_update _ _ fun t hst _ _ => safe_publish _ fun u htu hinv _ => ?_
    obtain ⟨hinv', hguar⟩ := publish_declined (p := p) hinv (hknown.stay (hst.trans htu.of_lock)).1
      hbase hcur
    exact ⟨hinv', hguar, safe_pure trivial⟩

theorem safe_rejectMachine (machineId : Uuid) (note : Option String) (caller : Option Uuid) :
    (rejectMachine machineId note caller).Safe declinedDiscipline p anyEnd [] s := by
  refine safe_requireAdmin caller (fun _ => rfl) fun x t => ?_
  refine (safe_getMachineInScope machineId x.2 _).bind fun machine ws u h => ?_
  obtain ⟨rfl, hknown⟩ := h
  cases machine with
  | error e => exact safe_pure trivial
  | ok machine => exact safe_decline (hknown machine rfl) rfl _

theorem safe_approveMachine (threshold : ℤ) (machineId : Uuid) (note : Option String)
    (caller : Option Uuid) :
    (approveMachine threshold machineId note caller).Safe declinedDiscipline p anyEnd [] s := by
  refine safe_requireAdmin caller (fun _ => rfl) fun x t => ?_
  refine (safe_getMachineInScope machineId x.2 _).bind fun machine ws u h => ?_
  obtain ⟨rfl, -⟩ := h
  cases machine with
  | error e => exact safe_pure trivial
  | ok machine =>
    dsimp only
    split
    · exact safe_pure trivial
    · rename_i hpending
      have hbase : machine.status = .pending := not_not.mp hpending
      refine safe_answer _ fun v env _ _ => ?_
      have hcur : (machine.approvedAt env.now threshold note).status.InService := by
        rw [Machine.approvedAt]
        dsimp only
        split
        · exact Or.inl rfl
        · exact Or.inr rfl
      have hsame : machine ≠ machine.approvedAt env.now threshold note := by
        intro hsame
        rw [← hsame, hbase] at hcur
        exact absurd hcur (by decide)
      rw [flushMachine, if_neg hsame]
      refine safe_update _ _ fun t₁ _ _ _ => safe_publish _ fun t₂ _ hinv _ => ?_
      obtain ⟨hinv', hguar⟩ := publish_approved (p := p) hinv hbase hcur
      exact ⟨hinv', hguar, safe_pure trivial⟩

theorem safe_updateLifecycle (machineId : Uuid) (lifecycle : Option AssetLifecycle)
    (note : Option String) (caller : Option Uuid) :
    (updateLifecycle machineId lifecycle note caller).Safe declinedDiscipline p anyEnd [] s := by
  refine safe_requireAdmin caller (fun _ => rfl) fun x t => ?_
  cases lifecycle with
  | none => exact safe_pure trivial
  | some phase =>
    refine (safe_getMachineInScope machineId x.2 _).bind fun machine ws u h => ?_
    obtain ⟨rfl, hknown⟩ := h
    cases machine with
    | error e => exact safe_pure trivial
    | ok machine =>
      by_cases hphase : phase = .decommissioned
      · subst hphase
        exact safe_decline (hknown machine rfl) rfl _
      · dsimp only
        rw [if_neg hphase]
        refine (safe_of_ordinary (C := fun _ => True) noDecision_nil ?_
          (List.forall_mem_nil _)).mono fun _ _ _ _ => trivial
        refine (only_flushMachine (ordinary_machine (Or.inl (if_neg hphase)))).bind fun _ _ => ?_
        exact only_publish rfl (only_pure trivial)

section Enroll

variable (I : Identification)

theorem ordinary_enrolledAgain {e : Enrollment} {row : Machine} {hostname : Option String}
    {time : Time} (hid : e.reenrolled = decide (row.status = .decommissioned)) :
    Ordinary e.notes (.machine e.machineId row (row.enrolledAgain hostname time)) := by
  refine ordinary_machine (Or.inr ?_)
  by_cases h : row.status = .decommissioned
  · rw [h, decide_eq_true rfl] at hid
    refine Or.inr ⟨if_pos h, ?_⟩
    rw [Enrollment.notes, if_pos hid]
    exact List.mem_cons_of_mem _ List.mem_cons_self
  · refine Or.inl (Or.inl (if_neg h))

theorem noDecision_notes (e : Enrollment) : NoDecision e.notes := by
  intro machine
  rw [Enrollment.notes]
  cases e.reenrolled with
  | false => simp
  | true => simp

theorem safe_enrollMachine (tokenId : Uuid) (token : EnrollToken) (hostname : Option String)
    (fingerprint : Fingerprint) (time : Time) :
    (enrollMachine I tokenId token hostname fingerprint time).Safe declinedDiscipline p
      (fun r ws _ => ∀ e, r = .ok e → (∀ w ∈ ws, Ordinary e.notes w) ∧
        Ordinary e.notes (.machine e.machineId e.base e.machine)) [] s := by
  rw [enrollMachine]
  cases computeWeightedId I fingerprint with
  | none => exact safe_pure fun e h => by cases h
  | some weighted =>
    refine (stable_of_pending _ p fun ws => ws = []).bind (A := fun _ => False)
      (fun _ _ _ h => h.elim) (only_findMachine I token.orgId weighted fingerprint) rfl
      fun found ws t _ hws => ?_
    subst hws
    match found with
    | none => exact safe_pure fun e h => by cases h
    | some none =>
      have hm := only_insertMachine (A := fun w => ∀ note, Ordinary note w) (B := fun _ => False)
        (fun w hw note => ordinary_of_aside note w hw) (fun _ _ _ _ => ordinary_of_newStatus rfl)
        tokenId token hostname fingerprint weighted time
      refine (Prog.Only.safe_of_all (fun _ _ _ hnote => hnote.elim) hm (List.forall_mem_nil _)).mono ?_
      intro r ws t hr e he
      obtain ⟨-, -, hmachine, -⟩ := hr.1 e he
      exact ⟨fun w hw => hr.2 w hw e.notes, ordinary_machine (Or.inl (by rw [hmachine]))⟩
    | some (some (id, row)) =>
      have hm := only_updateMachine (B := fun _ => False) (A := fun w => ∀ e : Enrollment,
          e.machineId = id → e.reenrolled = decide (row.status = .decommissioned) →
            Ordinary e.notes w)
        I (fun w hw e _ _ => ordinary_of_aside e.notes w hw.aside) id row tokenId token hostname
        fingerprint weighted time (fun e he hre => he ▸ ordinary_enrolledAgain hre)
      refine (Prog.Only.safe_of_all (fun _ _ _ hnote => hnote.elim) hm (List.forall_mem_nil _)).mono ?_
      intro r ws t hr e he
      obtain ⟨-, -, hid, hre, hmachine, hbase⟩ := hr.1 e he
      refine ⟨fun w hw => hr.2 w hw e hid hre, ?_⟩
      rcases hbase with hbase | hbase
      · rw [hbase, hmachine]
        exact ordinary_enrolledAgain hre
      · exact ordinary_machine (Or.inl (by rw [hbase]))

/-- At the end of `perform_enroll` all that is pending goes with what the enrollment announces. -/
theorem safe_performEnroll_ordinary (tokenStr : String) (hostname : Option String)
    (fingerprint : Fingerprint) (ip : Option String) :
    (performEnroll I tokenStr hostname fingerprint ip).Safe declinedDiscipline p
      (fun r ws _ => ∀ e, r = .ok e → (∀ w ∈ ws, Ordinary e.notes w) ∧
        Ordinary e.notes (.machine e.machineId e.base e.machine)) [] s := by
  have hrefuse : ∀ refusal row detail ws t, (∀ w ∈ ws, Ordinary [] w) →
      (refuse I tokenStr refusal row hostname fingerprint ip detail :
        Handler (Except HttpError Enrollment)).Safe declinedDiscipline p
          (fun r ws _ => ∀ e, r = .ok e → (∀ w ∈ ws, Ordinary e.notes w) ∧
            Ordinary e.notes (.machine e.machineId e.base e.machine)) ws t := by
    intro refusal row detail ws t hws
    refine (safe_of_ordinary noDecision_nil (only_refuse (B := ([] = ·)) I
      (forall_apart (ordinary_of_aside [])) rfl tokenStr refusal row hostname fingerprint ip detail) hws).mono ?_
    exact fun r ws t hr e he => absurd he (hr.1 e)
  refine safe_select _ fun t _ _ => ?_
  match scalarOneOrNone ((t.view []).tokens.rowsWhere fun x =>
      decide (x.tokenHash = I.sha256 tokenStr)) with
  | none => exact safe_pure fun e h => by cases h
  | some none => exact hrefuse _ _ _ _ _ (List.forall_mem_nil _)
  | some (some (tokenId, token)) =>
    refine safe_answer _ fun t' _ _ _ => ?_
    split
    · exact hrefuse _ _ _ _ _ (List.forall_mem_nil _)
    · split
      · exact hrefuse _ _ _ _ _ (List.forall_mem_nil _)
      · split
        · refine (safe_of_ordinary noDecision_nil (only_flushToken (ordinary_of_newStatus rfl))
            (List.forall_mem_nil _)).bind fun _ ws u h => ?_
          exact hrefuse _ _ _ _ _ h.2
        · exact safe_enrollMachine I tokenId token hostname fingerprint _

/-- **An enrollment.** -/
theorem safe_enroll_ordinary (body : EnrollRequest) :
    (enroll I body).Safe declinedDiscipline p anyEnd [] s := by
  refine (safe_performEnroll_ordinary I _ _ _ _).bind fun r ws t h => ?_
  cases r with
  | error e => exact safe_pure trivial
  | ok e =>
    obtain ⟨hws, hmachine⟩ := h e rfl
    refine safe_answer _ fun t₁ env _ _ => ?_
    cases env.certificate with
    | none => exact safe_pure trivial
    | some pem =>
      refine safe_answer _ fun t₂ _ _ _ => ?_
      refine (safe_of_ordinary (C := fun _ => True) (noDecision_notes e) ?_ hws).mono
        fun _ _ _ _ => trivial
      refine (only_flushMachine hmachine).bind fun _ _ => ?_
      refine (only_flushToken (ordinary_of_newStatus rfl)).bind fun _ _ => ?_
      exact only_publish rfl (only_pure trivial)

end Enroll

theorem safe_fleetRoute_declinedOut (c : FleetSettings) (request : FleetRequest) :
    (fleetRoute c request).Safe declinedDiscipline p anyEnd [] s := by
  have haside := ordinary_of_aside []
  have hother : ∀ {β : Type} {m : Handler β}, m.Only (Ordinary []) ([] = ·) (fun _ => True) →
      (m >>= fun _ => pure ()).Safe declinedDiscipline p anyEnd [] s := fun hm =>
    (safe_of_ordinary noDecision_nil hm (List.forall_mem_nil _)).bind fun _ _ _ _ => trivial
  cases request with
  | enroll body => exact (safe_enroll_ordinary c.identification body).bind fun _ _ _ _ => trivial
  | heartbeat machineCn =>
    refine hother (only_heartbeat (forall_apart haside) rfl (fun id m time => ordinary_machine ?_)
      machineCn)
    rw [Machine.alive]
    dsimp only
    split
    · exact Or.inl rfl
    · exact Or.inr (Or.inl (Or.inl rfl))
  | sweepOffline =>
    refine (safe_of_ordinary noDecision_nil (only_sweepOffline rfl (fun id m => ?_) _)
      (List.forall_mem_nil _)).mono fun _ _ _ _ => trivial
    exact ordinary_machine (Or.inr (Or.inl (Or.inr rfl)))
  | approve machineId note caller =>
    exact (safe_approveMachine _ machineId note caller).bind fun _ _ _ _ => trivial
  | reject machineId note caller =>
    exact (safe_rejectMachine machineId note caller).bind fun _ _ _ _ => trivial
  | lifecycle machineId lifecycle note caller =>
    exact (safe_updateLifecycle machineId lifecycle note caller).bind fun _ _ _ _ => trivial
  | importOffline body caller =>
    exact hother (only_importOffline _ _ haside rfl (fun _ _ _ => ordinary_of_newStatus rfl)
      (fun _ _ _ h => ordinary_machine (Or.inl h)) body caller)
  | resolveDrift driftId approved caller =>
    refine hother (only_resolveDrift _ (forall_apart haside) rfl
      (fun id m drift approved cur hcur => ?_) driftId approved caller)
    exact ordinary_machine (Or.inl (Machine.resolved_status hcur))

end Routes

/-! ## Runs -/

/-- **A machine that was declined stays out of service until it is approved**, in every run whose commits
meet the condition. -/
theorem staysDeclined_of_runs (c : FleetSettings) {s : Store Data RowKey Note} (hs : s.events = [])
    {g : Engine Data RowKey DataWrite Env Note}
    (hrun : Runs (fleetStep c) (CommitsOnly LeavesDeclined) (Engine.start s) g) :
    StaysDeclined g.store := by
  have hstart : DeclinedOut s := by
    intro machine hm
    rw [hs] at hm
    cases hm
  have hout : DeclinedOut g.store := invariant_of_runs (R := declinedDiscipline)
    (fun _ request _ _ => safe_fleetRoute_declinedOut c request) (allSafe_start hstart)
    (permits_of_commits (fun _ _ _ => trivial) hrun)
  intro machine hm status hstatus hin
  rcases hout machine hm with h | ⟨h, -⟩
  · rw [Option.mem_def.mp hstatus] at h
    rw [Option.some.inj h] at hin
    exact absurd hin (by decide)
  · rw [Option.mem_def.mp hstatus] at h
    rw [Option.some.inj h] at hin
    exact absurd hin (by decide)

/-! A machine that is declined, enrolls and reports. -/

/-- A machine, and a token for it. -/
def oneMachine : Store Data RowKey Note :=
  storeOf { adminData with
    machines := Table.empty.insert 0 (exampleMachine "4C4C4544")
    tokens := Table.empty.insert 0 exampleToken }

/-- **A machine comes back**: it is declined, enrolls with a new token, so that it waits for an
administrator, and its next heartbeat puts it online. -/
theorem declined_comes_back : ¬ ∀ (c : FleetSettings) (s : Store Data RowKey Note), s.events = [] →
    ∀ g, Runs (fleetStep c) anyAction (Engine.start s) g → StaysDeclined g.store := by
  intro h
  obtain ⟨g, hrun, hg⟩ := exists_runs_of_exec (G := anyAction) (fleetStep exampleFleet)
    (Engine.start oneMachine)
    ([.begin 0 (.reject 0 none (some 0))] ++ runStatements 0 6 ++
      [.begin 1 (exampleEnrollment "4C4C4544")] ++ runStatements 1 9 ++
      [.begin 2 (.heartbeat (some 0))] ++ runStatements 2 5)
    (p := fun g => declined 0 g.store.events && decide (statusOf g.store.data 0 = some .online))
    (by decide +kernel)
  rw [Bool.and_eq_true, decide_eq_true_iff] at hg
  exact h exampleFleet oneMachine rfl g hrun 0 hg.1 .online hg.2 (Or.inl rfl)

theorem staysDeclined_of_rejection :
    ∃ g, Runs (fleetStep exampleFleet) (CommitsOnly LeavesDeclined) (Engine.start oneMachine) g ∧
      declined 0 g.store.events = true ∧ StaysDeclined g.store := by
  obtain ⟨g, hrun, hg⟩ := exists_runs_of_exec (G := CommitsOnly LeavesDeclined)
    (fleetStep exampleFleet) (Engine.start oneMachine)
    ([.begin 0 (.reject 0 none (some 0))] ++ runStatements 0 6 ++
      [.begin 2 (.heartbeat (some 0))] ++ runStatements 2 5)
    (p := fun g => declined 0 g.store.events) (by decide +kernel)
  exact ⟨g, hrun, hg, staysDeclined_of_runs exampleFleet rfl hrun⟩

end AssetInventory.Fleet
