import AssetInventory.Fleet.Writes

/-!
# One machine for one token

A token is checked at the start of an enrollment and marked at its end, and in between the CA signs.
Nothing ties the two together: two enrollments may both find the token good, and both commit.

* `FindsUnused`: the condition on a commit, that the token of an enrollment is not marked by then.
* `oneMachineEach_of_runs`: in every run whose commits meet it a token enrolls one machine at most, and
  says which.
* `token_enrolls_twice`: two machines with one token.
-/

namespace AssetInventory.Fleet

open PyJson PyTime Orm RowStore ReadCommitted Server Interleaving

/-- The machine that a token is marked with. -/
def markedWith (data : Data) (token : Uuid) : Option Uuid :=
  (data.tokens.get token).bind EnrollToken.usedBy

/-- The machines that a token has enrolled, one for each enrollment that was committed. -/
def enrolledWith (token : Uuid) (events : List Note) : List Uuid :=
  events.filterMap fun
    | .enrolled t machine => if t = token then some machine else none
    | _ => none

/-- Every token has enrolled at most once, and is marked with the machine. -/
def OneMachineEach (s : Store Data RowKey Note) : Prop :=
  ∀ token, (enrolledWith token s.events).length ≤ 1 ∧
    ∀ machine ∈ enrolledWith token s.events, markedWith s.data token = some machine

/-- An enrollment finds its token not marked. -/
def Note.FindsUnused (data : Data) : Note → Prop
  | .enrolled token _ => markedWith data token = none
  | _ => True

instance (data : Data) : DecidablePred (Note.FindsUnused data)
  | .enrolled token _ => inferInstanceAs (Decidable (markedWith data token = none))
  | .reenrolled _ => isTrue trivial
  | .approved _ => isTrue trivial
  | .declined _ => isTrue trivial

/-- **The condition on a commit**: the token of an enrollment is not marked with a machine when the
commit happens. -/
def FindsUnused (s : Store Data RowKey Note) (_pending : List DataWrite) (note : List Note) : Prop :=
  ∀ n ∈ note, n.FindsUnused s.data

instance (s : Store Data RowKey Note) (pending : List DataWrite) (note : List Note) :
    Decidable (FindsUnused s pending note) :=
  inferInstanceAs (Decidable (∀ n ∈ note, n.FindsUnused s.data))

/-! ## Tokens that stay -/

/-- The tokens are still there, marked as before if they were. -/
def TokensStay (d d' : Data) : Prop :=
  ∀ token row, d.tokens.get token = some row →
    ∃ row', d'.tokens.get token = some row' ∧ ∀ machine ∈ row.usedBy, machine ∈ row'.usedBy

/-- A write that marks no token. -/
def KeepsMarks : DataWrite → Prop
  | .token _ base cur => cur.usedBy = base.usedBy
  | _ => True

section TokensStay

variable {d d' d'' : Data} {w : DataWrite} {ws : List DataWrite}

theorem TokensStay.refl (d : Data) : TokensStay d d := fun _ row h => ⟨row, h, fun _ hm => hm⟩

theorem TokensStay.trans (h : TokensStay d d') (h' : TokensStay d' d'') : TokensStay d d'' := by
  intro token row hrow
  obtain ⟨row', hrow', hused⟩ := h token row hrow
  obtain ⟨row'', hrow'', hused'⟩ := h' token row' hrow'
  exact ⟨row'', hrow'', fun machine hm => hused' machine (hused machine hm)⟩

theorem TokensStay.marked {token machine : Uuid} (h : TokensStay d d')
    (hmarked : markedWith d token = some machine) : markedWith d' token = some machine := by
  obtain ⟨row, hrow, hused⟩ := Option.bind_eq_some_iff.mp hmarked
  obtain ⟨row', hrow', hused'⟩ := h token row hrow
  exact Option.bind_eq_some_iff.mpr ⟨row', hrow', hused' machine hused⟩

theorem KeepsMarks.of_aside (h : w.Aside) : KeepsMarks w := by
  cases w <;> trivial

theorem KeepsMarks.tokensStay (hw : KeepsMarks w) (d : Data) : TokensStay d (Applies.apply w d) := by
  cases w with
  | token id base cur =>
    intro token row hrow
    rw [tokens_token]
    by_cases htoken : token = id
    · subst htoken
      rw [Table.get_modify_self, hrow]
      refine ⟨_, rfl, fun machine hm => ?_⟩
      change machine ∈ pick base.usedBy cur.usedBy row.usedBy
      rw [show cur.usedBy = base.usedBy from hw, pick_same]
      exact hm
    · rw [Table.get_modify_of_ne _ _ htoken]
      exact ⟨row, hrow, fun _ hm => hm⟩
  | newToken id new =>
    intro token row hrow
    rw [tokens_newToken]
    exact ⟨row, Table.get_insert_of_get hrow, fun _ hm => hm⟩
  | _ => exact TokensStay.refl d

theorem tokensStay_applyAll (hws : ∀ w ∈ ws, KeepsMarks w) (d : Data) :
    TokensStay d (applyAll ws d) :=
  applyAll_invariant (P := TokensStay d) (fun w hw d' hd => hd.trans ((hws w hw).tokensStay d'))
    (TokensStay.refl d)

end TokensStay

/-! ## Commits -/

/-- No enrollment is announced. -/
def NoneEnrolled (note : List Note) : Prop := ∀ token, enrolledWith token note = []

theorem enrolledWith_append (token : Uuid) (note events : List Note) :
    enrolledWith token (note ++ events) = enrolledWith token note ++ enrolledWith token events :=
  List.filterMap_append

theorem OneMachineEach.of_noneEnrolled {s s' : Store Data RowKey Note} {note : List Note}
    (h : OneMachineEach s) (hnote : NoneEnrolled note) (hevents : s'.events = note ++ s.events)
    (hdata : TokensStay s.data s'.data) : OneMachineEach s' := by
  intro token
  obtain ⟨hlength, hmarked⟩ := h token
  rw [hevents, enrolledWith_append, hnote token, List.nil_append]
  exact ⟨hlength, fun machine hm => hdata.marked (hmarked machine hm)⟩

/-- The token as it was read is there, with its mark if it had one. -/
def TokenKnown (tokenId : Uuid) (token : EnrollToken) (d : Data) : Prop :=
  ∃ stored, d.tokens.get tokenId = some stored ∧ ∀ machine ∈ token.usedBy, machine ∈ stored.usedBy

theorem TokenKnown.stays {tokenId : Uuid} {token : EnrollToken} {d d' : Data}
    (h : TokenKnown tokenId token d) (hd : TokensStay d d') : TokenKnown tokenId token d' := by
  obtain ⟨stored, hstored, hused⟩ := h
  obtain ⟨stored', hstored', hused'⟩ := hd tokenId stored hstored
  exact ⟨stored', hstored', fun machine hm => hused' machine (hused machine hm)⟩

section Mark

variable {tokenId : Uuid} {token : EnrollToken} {d : Data} {ws : List DataWrite}

theorem TokenKnown.usedBy_eq_none (h : TokenKnown tokenId token d)
    (hunused : markedWith d tokenId = none) : token.usedBy = none := by
  obtain ⟨stored, hstored, hused⟩ := h
  rw [markedWith, hstored, Option.bind_some] at hunused
  cases hmark : token.usedBy with
  | none => rfl
  | some m =>
    have := hused m hmark
    rw [hunused] at this
    cases this

/-- **The mark**: a token that is not marked yet is marked, and the other tokens stay. -/
theorem marked_of_usedFor (machine : Uuid) (time : Time) (hws : ∀ w ∈ ws, KeepsMarks w)
    (hknown : TokenKnown tokenId token d) (hunused : markedWith d tokenId = none) :
    let d' := applyAll (ws ++ [.token tokenId token (token.usedFor machine time)]) d
    TokensStay d d' ∧ markedWith d' tokenId = some machine := by
  have hstay := tokensStay_applyAll hws d
  have hbase := hknown.usedBy_eq_none hunused
  rw [applyAll_append, applyAll_cons, applyAll_nil]
  refine ⟨fun other row hrow => ?_, ?_⟩
  · rw [tokens_token]
    by_cases hother : other = tokenId
    · subst hother
      obtain ⟨row', hrow', -⟩ := hstay other row hrow
      rw [markedWith, hrow, Option.bind_some] at hunused
      rw [Table.get_modify_self, hrow']
      refine ⟨_, rfl, fun m hm => ?_⟩
      rw [hunused] at hm
      cases hm
    · rw [Table.get_modify_of_ne _ _ hother]
      exact hstay other row hrow
  · obtain ⟨row', hrow', -⟩ := hknown.stays hstay
    rw [markedWith, tokens_token, Table.get_modify_self, hrow']
    change pick token.usedBy (some machine) row'.usedBy = some machine
    rw [hbase]
    rfl

end Mark

theorem enrolledWith_notes (e : Enrollment) (token : Uuid) :
    enrolledWith token e.notes = if e.tokenId = token then [e.machineId] else [] := by
  rw [Enrollment.notes]
  by_cases htoken : e.tokenId = token
  · cases e.reenrolled <;> simp [enrolledWith, htoken]
  · cases e.reenrolled <;> simp [enrolledWith, htoken]

/-- **The commit of an enrollment** whose token was not marked. -/
theorem OneMachineEach.enrolled {s s' : Store Data RowKey Note} {e : Enrollment}
    (h : OneMachineEach s) (hunused : markedWith s.data e.tokenId = none)
    (hevents : s'.events = e.notes ++ s.events) (hdata : TokensStay s.data s'.data)
    (hmarked : markedWith s'.data e.tokenId = some e.machineId) : OneMachineEach s' := by
  intro token
  obtain ⟨hlength, hold⟩ := h token
  rw [hevents, enrolledWith_append, enrolledWith_notes]
  split
  · rename_i htoken
    subst htoken
    have hnone : enrolledWith e.tokenId s.events = [] := by
      refine List.eq_nil_iff_forall_not_mem.mpr fun machine hm => ?_
      have := hold machine hm
      rw [hunused] at this
      cases this
    rw [hnone, List.append_nil]
    refine ⟨le_refl _, fun machine hm => ?_⟩
    rw [List.mem_singleton.mp hm]
    exact hmarked
  · rw [List.nil_append]
    exact ⟨hlength, fun machine hm => hdata.marked (hold machine hm)⟩

/-! ## The routes -/

/-- Every token has enrolled at most once; the tokens stay. -/
def tokenDiscipline : Discipline Data RowKey DataWrite Note where
  Inv := OneMachineEach
  Rely _ s t := TokensStay s.data t.data
  Guar _ s t := TokensStay s.data t.data
  Allowed := FindsUnused
  rely_refl _ s := .refl s.data
  rely_trans _ _ _ _ h h' := h.trans h'
  rely_of_guar _ _ _ _ _ h := h
  guar_refl _ s := .refl s.data
  lock_ok _ s row hinv _ := by
    cases row with
    | none => exact ⟨hinv, .refl _⟩
    | some k => exact ⟨hinv, .refl _⟩
  release_ok _ _ hinv := ⟨hinv, .refl _⟩
  unlock_ok _ _ _ hinv := ⟨hinv, .refl _⟩
  draw_ok _ _ hinv := ⟨hinv, .refl _⟩

section Routes

variable {p : TxId} {s : Store Data RowKey Note} {α : Type} {ws : List DataWrite}

theorem publish_keepsMarks {note : List Note} (hnote : NoneEnrolled note)
    (hinv : OneMachineEach s) (hws : ∀ w ∈ ws, KeepsMarks w) :
    OneMachineEach (s.publish p ws note) ∧ TokensStay s.data (s.publish p ws note).data :=
  ⟨hinv.of_noneEnrolled hnote rfl (tokensStay_applyAll hws s.data), tokensStay_applyAll hws s.data⟩

theorem safe_of_keepsMarks {m : Handler α} {C : α → Prop}
    (hm : m.Only KeepsMarks NoneEnrolled C) (hws : ∀ w ∈ ws, KeepsMarks w) :
    m.Safe tokenDiscipline p (fun a ws _ => C a ∧ ∀ w ∈ ws, KeepsMarks w) ws s :=
  hm.safe_of_all (fun _ _ _ hnote hinv hws _ => publish_keepsMarks hnote hinv hws) hws

variable (I : Identification)

theorem only_enrollMachine {B : List Note → Prop} (tokenId : Uuid) (token : EnrollToken)
    (hostname : Option String) (fingerprint : Fingerprint) (time : Time) :
    (enrollMachine I tokenId token hostname fingerprint time).Only KeepsMarks B
      fun r => ∀ e, r = .ok e → e.tokenId = tokenId ∧ e.token = token := by
  rw [enrollMachine]
  cases computeWeightedId I fingerprint with
  | none => exact only_pure fun e h => by cases h
  | some weighted =>
    refine (only_findMachine I token.orgId weighted fingerprint).bind fun found _ => ?_
    have haside : ∀ w : DataWrite, w.Aside → KeepsMarks w := fun w => KeepsMarks.of_aside
    match found with
    | none => exact only_pure fun e h => by cases h
    | some none =>
      have hm := only_insertMachine (B := B) haside (fun _ _ _ => trivial) tokenId token hostname
        fingerprint weighted time
      exact Prog.Only.mono hm (fun _ h => h) (fun _ h => h) fun r hr e he =>
        ⟨(hr e he).1, (hr e he).2.1⟩
    | some (some (id, row)) =>
      have hm := only_updateMachine (A := KeepsMarks) (B := B) I (forall_apart haside) id row tokenId token hostname
        fingerprint weighted time trivial
      exact Prog.Only.mono hm (fun _ h => h) (fun _ h => h) fun r hr e he =>
        ⟨(hr e he).1, (hr e he).2.1⟩

/-- What `enroll` relies on from the end of `perform_enroll` on outlasts the others. -/
theorem stable_tokenKnown (p : TxId) (tokenId : Uuid) (token : EnrollToken) :
    Stable tokenDiscipline p fun ws t => (∀ w ∈ ws, KeepsMarks w) ∧ TokenKnown tokenId token t.data :=
  (stable_of_pending _ p _).and
    (Stable.of_data (P := fun _ d => TokenKnown tokenId token d) fun _ _ _ hst h => h.stays hst)

/-- At the end of `perform_enroll` the token is known, and nothing that is pending marks one. -/
theorem safe_performEnroll (tokenStr : String) (hostname : Option String) (fingerprint : Fingerprint)
    (ip : Option String) : (performEnroll I tokenStr hostname fingerprint ip).Safe tokenDiscipline p
      (fun r ws t => (∀ w ∈ ws, KeepsMarks w) ∧ ∀ e, r = .ok e → TokenKnown e.tokenId e.token t.data)
      [] s := by
  have haside : ∀ w : DataWrite, w.Aside → KeepsMarks w := fun w => KeepsMarks.of_aside
  have hrefuse : ∀ refusal row detail ws t, (∀ w ∈ ws, KeepsMarks w) →
      (refuse I tokenStr refusal row hostname fingerprint ip detail :
        Handler (Except HttpError Enrollment)).Safe tokenDiscipline p (fun r ws t =>
          (∀ w ∈ ws, KeepsMarks w) ∧ ∀ e, r = .ok e → TokenKnown e.tokenId e.token t.data) ws t := by
    intro refusal row detail ws t hws
    refine (safe_of_keepsMarks (only_refuse I (forall_apart haside) (fun _ => rfl) tokenStr refusal row
      hostname fingerprint ip detail) hws).mono ?_
    exact fun r ws t hr => ⟨hr.2, fun e he => absurd he (hr.1 e)⟩
  refine safe_select _ fun t _ _ => ?_
  match hfound : scalarOneOrNone ((t.view []).tokens.rowsWhere fun x =>
      decide (x.tokenHash = I.sha256 tokenStr)) with
  | none => exact safe_pure ⟨List.forall_mem_nil _, fun e h => by cases h⟩
  | some none => exact hrefuse _ _ _ _ _ (List.forall_mem_nil _)
  | some (some (tokenId, token)) =>
    have hknown : TokenKnown tokenId token t.data :=
      ⟨token, (Table.mem_rowsWhere.mp (mem_of_scalarOneOrNone hfound)).1, fun _ hm => hm⟩
    refine safe_answer _ fun t' _ hstay _ => ?_
    split
    · exact hrefuse _ _ _ _ _ (List.forall_mem_nil _)
    · split
      · exact hrefuse _ _ _ _ _ (List.forall_mem_nil _)
      · split
        · refine (safe_of_keepsMarks (only_flushToken (by rfl)) (List.forall_mem_nil _)).bind
            fun _ ws u h => ?_
          exact hrefuse _ _ _ _ _ h.2
        · refine Prog.Safe.mono (Prog.Only.safe (P := fun ws u =>
            (∀ w ∈ ws, KeepsMarks w) ∧ TokenKnown tokenId token u.data) ?_ ?_ ?_
            (only_enrollMachine (B := fun _ => False) I tokenId token hostname fingerprint _)
            ⟨List.forall_mem_nil _, hknown.stays hstay⟩) ?_
          · exact stable_tokenKnown p tokenId token
          · intro ws u w hw h
            exact ⟨List.forall_mem_append.mpr ⟨h.1, List.forall_mem_singleton.mpr hw⟩, h.2⟩
          · exact fun _ _ _ hnote => hnote.elim
          · intro r ws u h
            refine ⟨h.2.1, fun e he => ?_⟩
            obtain ⟨htokenId, htoken⟩ := h.1 e he
            rw [htokenId, htoken]
            exact h.2.2

/-- The last statements of `enroll`: the token is marked, and all is committed. -/
theorem safe_markToken (e : Enrollment) (time : Time) {response : EnrollResponse}
    (hws : ∀ w ∈ ws, KeepsMarks w)
    (hknown : TokenKnown e.tokenId e.token s.data) :
    (do
      flushToken e.tokenId e.token (e.token.usedFor e.machineId time)
      .publish e.notes
      return .ok response : Handler (Except HttpError EnrollResponse)).Safe tokenDiscipline p anyEnd
      ws s := by
  have hunused : ∀ t ws, tokenDiscipline.Allowed t ws e.notes → markedWith t.data e.tokenId = none :=
    fun t ws hallowed => hallowed _ (List.mem_cons_self)
  by_cases hsame : e.token = e.token.usedFor e.machineId time
  · rw [flushToken, if_pos hsame]
    refine safe_publish e.notes fun t hst _ hallowed => ?_
    have hnone := (hknown.stays hst).usedBy_eq_none (hunused t _ hallowed)
    have hmark : e.token.usedBy = some e.machineId := congrArg EnrollToken.usedBy hsame
    rw [hnone] at hmark
    cases hmark
  · rw [flushToken, if_neg hsame]
    refine safe_update _ _ fun t hst _ _ => safe_publish e.notes fun u htu hinv hallowed => ?_
    have hnone := hunused u _ hallowed
    obtain ⟨hstay, hmarked⟩ := marked_of_usedFor e.machineId time hws
      (hknown.stays (hst.trans htu)) hnone
    exact ⟨hinv.enrolled hnone rfl hstay hmarked, hstay, safe_pure trivial⟩

/-- **An enrollment** is safe: if its token is not marked at its commit, the commit marks it. -/
theorem safe_enroll (body : EnrollRequest) : (enroll I body).Safe tokenDiscipline p anyEnd [] s := by
  refine (safe_performEnroll I _ _ _ _).bind fun r ws t h => ?_
  cases r with
  | error e => exact safe_pure trivial
  | ok e =>
    refine safe_answer _ fun t₁ env hstay₁ _ => ?_
    cases env.certificate with
    | none => exact safe_pure trivial
    | some pem =>
      refine safe_answer _ fun t₂ _ hstay₂ _ => ?_
      refine (stable_tokenKnown p e.tokenId e.token).bind (A := KeepsMarks) ?_
        (only_flushMachine trivial) ⟨h.1, (h.2 e rfl).stays (hstay₁.trans hstay₂)⟩
        fun _ ws' u _ hu => safe_markToken e _ hu.1 hu.2
      intro ws' u w hw hu
      exact ⟨List.forall_mem_append.mpr ⟨hu.1, List.forall_mem_singleton.mpr hw⟩, hu.2⟩

theorem safe_fleetRoute_oneMachineEach (c : FleetSettings) (request : FleetRequest) :
    (fleetRoute c request).Safe tokenDiscipline p anyEnd [] s := by
  have haside : ∀ w : DataWrite, w.Aside → KeepsMarks w := fun w => KeepsMarks.of_aside
  have hother : ∀ {β : Type} {m : Handler β}, m.Only KeepsMarks NoneEnrolled (fun _ => True) →
      (m >>= fun _ => pure ()).Safe tokenDiscipline p anyEnd [] s := fun hm =>
    (safe_of_keepsMarks hm (List.forall_mem_nil _)).bind fun _ _ _ _ => trivial
  cases request with
  | enroll body => exact (safe_enroll c.identification body).bind fun _ _ _ _ => trivial
  | heartbeat machineCn =>
    exact hother (only_heartbeat (forall_apart haside) (fun _ => rfl) (fun _ _ _ => trivial) machineCn)
  | sweepOffline =>
    exact (safe_of_keepsMarks (only_sweepOffline (fun _ => rfl) (fun _ _ => trivial) _)
      (List.forall_mem_nil _)).mono fun _ _ _ _ => trivial
  | approve machineId note caller =>
    exact hother (only_approveMachine _ machineId note caller (fun _ => rfl) fun _ _ _ => trivial)
  | reject machineId note caller =>
    exact hother (only_rejectMachine machineId note caller (fun _ => rfl) fun _ => trivial)
  | lifecycle machineId lifecycle note caller =>
    refine hother (only_updateLifecycle machineId lifecycle note caller ?_ fun _ _ => trivial)
    intro token
    split
    · rfl
    · rfl
  | importOffline body caller =>
    exact hother (only_importOffline _ _ haside (fun _ => rfl) (fun _ _ _ => trivial)
      (fun _ _ _ _ => trivial) body caller)
  | resolveDrift driftId approved caller =>
    exact hother (only_resolveDrift _ (forall_apart haside) (fun _ => rfl)
      (fun _ _ _ _ _ _ => trivial) driftId approved caller)

end Routes

/-! ## Runs -/

/-- **One machine for one token** in every run whose commits meet the condition. -/
theorem oneMachineEach_of_runs (c : FleetSettings) {s : Store Data RowKey Note} (hs : s.events = [])
    {g : Engine Data RowKey DataWrite Env Note}
    (hrun : Runs (fleetStep c) (CommitsOnly FindsUnused) (Engine.start s) g) :
    OneMachineEach g.store := by
  have hstart : OneMachineEach s := by
    intro token
    rw [hs]
    exact ⟨Nat.zero_le 1, List.forall_mem_nil _⟩
  exact invariant_of_runs (R := tokenDiscipline)
    (fun _ request _ _ => safe_fleetRoute_oneMachineEach c request) (allSafe_start hstart)
    (permits_of_commits (fun _ _ _ => trivial) hrun)

/-! Two machines with one token. -/

/-- One token, and no machines. -/
def oneToken : Store Data RowKey Note :=
  storeOf { noData with tokens := Table.empty.insert 0 exampleToken }

/-- **Two machines enroll with one token**: the CA signs for both before either of them marks it. -/
theorem token_enrolls_twice : ¬ ∀ (c : FleetSettings) (s : Store Data RowKey Note), s.events = [] →
    ∀ g, Runs (fleetStep c) anyAction (Engine.start s) g → OneMachineEach g.store := by
  intro h
  obtain ⟨g, hrun, hg⟩ := exists_runs_of_exec (G := anyAction) (fleetStep exampleFleet)
    (Engine.start oneToken)
    ([.begin 0 (exampleEnrollment "4C4C4544"), .begin 1 (exampleEnrollment "03000200")] ++
      runStatements 0 11 ++ runStatements 1 11 ++ runStatements 0 2 ++ runStatements 1 2)
    (p := fun g => decide (enrolledWith 0 g.store.events = [1, 0])) (by decide +kernel)
  have hlength := (h exampleFleet oneToken rfl g hrun 0).1
  rw [of_decide_eq_true hg] at hlength
  exact absurd hlength (by decide)

theorem oneMachineEach_of_enrollment :
    ∃ g, Runs (fleetStep exampleFleet) (CommitsOnly FindsUnused) (Engine.start oneToken) g ∧
      enrolledWith 0 g.store.events = [0] ∧ OneMachineEach g.store := by
  obtain ⟨g, hrun, hg⟩ := exists_runs_of_exec (G := CommitsOnly FindsUnused)
    (fleetStep exampleFleet) (Engine.start oneToken)
    ([.begin 0 (exampleEnrollment "4C4C4544")] ++ runStatements 0 13)
    (p := fun g => decide (enrolledWith 0 g.store.events = [0])) (by decide +kernel)
  exact ⟨g, hrun, of_decide_eq_true hg, oneMachineEach_of_runs exampleFleet rfl hrun⟩

end AssetInventory.Fleet
