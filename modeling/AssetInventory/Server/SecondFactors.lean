import AssetInventory.Server.Auth

/-!
# Second factors

A login accepts a time step after the last one that the user has, and stores it; a backup code is taken off
the list.  Both are decided on the user as it was read.  The confirmation of a secret stores its time step
without looking at the last one.

* `FactorsInOrder`: the condition on a commit, that what is accepted is new to the row as it is stored
  then.
* `single_use`: second factors are accepted once, and the stored time step does not go back, in every run
  whose commits meet the condition.
* `step_accepted_twice`: a time step that is accepted again after the confirmation of an earlier one.
-/

namespace AssetInventory.Server

open PyJson Orm RowStore ReadCommitted Interleaving

/-! ## What is accepted -/

/-- The last time step of a user. -/
def lastStep (data : Data) (user : Uuid) : Option ℤ := (data.users.get user).bind User.totpLastCounter

/-- The backup codes of a user. -/
def storedCodes (data : Data) (user : Uuid) : List String :=
  ((data.users.get user).bind User.backupCodes).getD []

/-- The time step that a login has accepted. -/
def Note.loginStep : Note → Option (Uuid × ℤ)
  | .loggedIn user (some (.totp counter)) _ => some (user, counter)
  | _ => none

/-- The time step that a confirmation has accepted. -/
def Note.confirmStep : Note → Option (Uuid × ℤ)
  | .confirmed user counter => some (user, counter)
  | _ => none

/-- The backup code that a login has accepted. -/
def Note.backupCode : Note → Option (Uuid × String)
  | .loggedIn user (some (.backup hash)) _ => some (user, hash)
  | _ => none

/-- What is accepted is new to the user as stored: a login has a later time step, or read the backup codes
that are stored; a confirmation has no earlier time step. -/
def Note.InOrder (stored : Data) : Note → Prop
  | .loggedIn user (some (.totp counter)) _ => ∀ last ∈ lastStep stored user, last < counter
  | .loggedIn user (some (.backup _)) codes => (stored.users.get user).bind User.backupCodes = codes
  | .confirmed user counter => ∀ last ∈ lastStep stored user, last ≤ counter
  | _ => True

instance (stored : Data) : DecidablePred (Note.InOrder stored)
  | .loggedIn _ (some (.totp _)) _ => by unfold Note.InOrder; infer_instance
  | .loggedIn _ (some (.backup _)) _ => by unfold Note.InOrder; infer_instance
  | .loggedIn _ none _ => isTrue trivial
  | .confirmed _ _ => by unfold Note.InOrder; infer_instance
  | .exchanged _ => isTrue trivial
  | .replayed _ _ => isTrue trivial
  | .administered _ _ => isTrue trivial

/-- **The condition on a commit**: what it accepts is new to the users as they are stored then. -/
def FactorsInOrder (s : Store Data RowKey Note) (_ : List DataWrite) (note : List Note) : Prop :=
  ∀ n ∈ note, n.InOrder s.data

instance (s : Store Data RowKey Note) (pending : List DataWrite) (note : List Note) :
    Decidable (FactorsInOrder s pending note) := by
  unfold FactorsInOrder
  infer_instance

/-! ## The invariant -/

/-- A time step that is there stays, or a later one comes. -/
def StepLe (x y : Option ℤ) : Prop := ∀ a ∈ x, ∃ b ∈ y, a ≤ b

theorem StepLe.refl (x : Option ℤ) : StepLe x x := fun a ha => ⟨a, ha, le_refl a⟩

theorem StepLe.trans {x y z : Option ℤ} (hxy : StepLe x y) (hyz : StepLe y z) : StepLe x z := by
  intro a ha
  obtain ⟨b, hb, hab⟩ := hxy a ha
  obtain ⟨c, hc, hbc⟩ := hyz b hb
  exact ⟨c, hc, hab.trans hbc⟩

/-- No user goes, and the last time step of none goes back. -/
def StepsGrow (d d' : Data) : Prop :=
  ∀ user row, d.users.get user = some row →
    ∃ row', d'.users.get user = some row' ∧ StepLe row.totpLastCounter row'.totpLastCounter

theorem StepsGrow.refl (d : Data) : StepsGrow d d := fun _ row h => ⟨row, h, StepLe.refl _⟩

theorem StepsGrow.trans {d d' d'' : Data} (h : StepsGrow d d') (h' : StepsGrow d' d'') :
    StepsGrow d d'' := by
  intro user row hrow
  obtain ⟨row', hrow', hle⟩ := h user row hrow
  obtain ⟨row'', hrow'', hle'⟩ := h' user row' hrow'
  exact ⟨row'', hrow'', hle.trans hle'⟩

theorem StepsGrow.lastStep {d d' : Data} (h : StepsGrow d d') (user : Uuid) :
    StepLe (lastStep d user) (lastStep d' user) := by
  intro a ha
  obtain ⟨row, hrow, hlast⟩ := Option.bind_eq_some_iff.mp ha
  obtain ⟨row', hrow', hle⟩ := h user row hrow
  obtain ⟨b, hb, hab⟩ := hle a hlast
  exact ⟨b, Option.bind_eq_some_iff.mpr ⟨row', hrow', hb⟩, hab⟩

/-- What has been accepted so far, beside what is stored; `d₀` is what was stored at first. -/
structure FactorInv (d₀ : Data) (s : Store Data RowKey Note) : Prop where
  /-- Accepted time steps are not after the stored one. -/
  stored : ∀ n ∈ s.events, ∀ user k, n.loginStep = some (user, k) ∨ n.confirmStep = some (user, k) →
    ∃ last ∈ lastStep s.data user, k ≤ last
  /-- A time step that a login accepts has not been accepted before. -/
  once : s.events.Pairwise fun later earlier =>
    ∀ x, later.loginStep = some x → earlier.loginStep ≠ some x ∧ earlier.confirmStep ≠ some x
  /-- A backup code that has been accepted has gone from the list. -/
  codes : ∀ user hash, (storedCodes s.data user).count hash +
    (s.events.filterMap Note.backupCode).count (user, hash) ≤ (storedCodes d₀ user).count hash

/-- What a commit that announces `note` does to the data. -/
structure Accepts (note : List Note) (d d' : Data) : Prop where
  single : note.length ≤ 1
  grow : StepsGrow d d'
  login : ∀ n ∈ note, ∀ user k, n.loginStep = some (user, k) →
    (∀ last ∈ lastStep d user, last < k) ∧ lastStep d' user = some k
  confirm : ∀ n ∈ note, ∀ user k, n.confirmStep = some (user, k) → lastStep d' user = some k
  codes : ∀ user hash, (storedCodes d' user).count hash +
    (note.filterMap Note.backupCode).count (user, hash) ≤ (storedCodes d user).count hash

/-- **A commit keeps the invariant.** -/
theorem Accepts.factorInv {d₀ : Data} {s t : Store Data RowKey Note} {note : List Note}
    (h : Accepts note s.data t.data) (hevents : t.events = note ++ s.events) (hinv : FactorInv d₀ s) :
    FactorInv d₀ t where
  stored := by
    intro n hn user k hk
    rw [hevents, List.mem_append] at hn
    rcases hn with hn | hn
    · have hlast : lastStep t.data user = some k := by
        rcases hk with hk | hk
        · exact (h.login n hn user k hk).2
        · exact h.confirm n hn user k hk
      exact ⟨k, hlast, le_refl k⟩
    · obtain ⟨last, hlast, hle⟩ := hinv.stored n hn user k hk
      obtain ⟨last', hlast', hle'⟩ := h.grow.lastStep user last hlast
      exact ⟨last', hlast', hle.trans hle'⟩
  once := by
    rw [hevents, List.pairwise_append]
    refine ⟨?_, hinv.once, ?_⟩
    · have hsingle := h.single
      match note, hsingle with
      | [], _ => exact List.Pairwise.nil
      | [n], _ => exact List.pairwise_singleton _ _
    · -- the time step is after the stored one, which no earlier one is
      intro later hlater earlier hearlier x hx
      have hbefore := (h.login later hlater x.1 x.2 hx).1
      constructor
      · intro hx'
        obtain ⟨last, hlast, hle⟩ := hinv.stored earlier hearlier x.1 x.2 (Or.inl hx')
        exact absurd (hbefore last hlast) (not_lt_of_ge hle)
      · intro hx'
        obtain ⟨last, hlast, hle⟩ := hinv.stored earlier hearlier x.1 x.2 (Or.inr hx')
        exact absurd (hbefore last hlast) (not_lt_of_ge hle)
  codes := by
    intro user hash
    have hnew := h.codes user hash
    have hold := hinv.codes user hash
    rw [hevents, List.filterMap_append, List.count_append]
    omega

/-- The transactions keep the invariant and let the time steps grow. -/
def factorDiscipline (d₀ : Data) : Discipline Data RowKey DataWrite Note where
  Inv := FactorInv d₀
  Rely _ s t := StepsGrow s.data t.data
  Guar _ s t := StepsGrow s.data t.data
  Allowed := FactorsInOrder
  rely_refl _ s := StepsGrow.refl s.data
  rely_trans _ _ _ _ := StepsGrow.trans
  rely_of_guar _ _ _ _ _ h := h
  guar_refl _ s := StepsGrow.refl s.data
  lock_ok p s row hinv _ := by
    refine ⟨⟨?_, ?_, ?_⟩, ?_⟩
    · rw [Store.data_lock, Store.events_lock]
      exact hinv.stored
    · rw [Store.events_lock]
      exact hinv.once
    · rw [Store.data_lock, Store.events_lock]
      exact hinv.codes
    · rw [Store.data_lock]
      exact StepsGrow.refl s.data
  release_ok _ s hinv := ⟨⟨hinv.stored, hinv.once, hinv.codes⟩, StepsGrow.refl s.data⟩
  unlock_ok _ s _ hinv := ⟨⟨hinv.stored, hinv.once, hinv.codes⟩, StepsGrow.refl s.data⟩
  draw_ok _ s hinv := ⟨⟨hinv.stored, hinv.once, hinv.codes⟩, StepsGrow.refl s.data⟩

/-! ## Transactions that accept nothing -/

/-- The columns of the second factors. -/
def User.factors (user : User) : Option ℤ × Option (List String) :=
  (user.totpLastCounter, user.backupCodes)

/-- The write leaves the second factors alone. -/
def KeepsFactors : DataWrite → Prop
  | .user _ base cur => cur.factors = base.factors
  | .deleteUser _ => False
  | _ => True

def Note.AcceptsNothing (n : Note) : Prop :=
  n.loginStep = none ∧ n.confirmStep = none ∧ n.backupCode = none

/-- What a commit announces when nothing is accepted. -/
def Quiet (note : List Note) : Prop := note.length ≤ 1 ∧ ∀ n ∈ note, n.AcceptsNothing

theorem quiet_nil : Quiet [] := ⟨Nat.zero_le 1, fun _ h => absurd h List.not_mem_nil⟩

theorem quiet_singleton {n : Note} (h : n.AcceptsNothing) : Quiet [n] := by
  refine ⟨le_refl 1, fun m hm => ?_⟩
  rw [List.mem_singleton.mp hm]
  exact h

section Keeps

variable {ws : List DataWrite} {d d' : Data} {note : List Note} {base cur user : User}

theorem factors_writeBack (h : cur.factors = base.factors) (stored : User) :
    (User.writeBack base cur stored).factors = stored.factors := by
  obtain ⟨hlast, hcodes⟩ := Prod.mk.inj h
  rw [User.factors, User.writeBack, hlast, hcodes, pick_same, pick_same]
  rfl

theorem factors_apply {w : DataWrite} (hw : KeepsFactors w) (d : Data) (user : Uuid) :
    ((Applies.apply w d).users.get user).map User.factors =
      (d.users.get user).map User.factors := by
  cases w with
  | user id base cur =>
    by_cases hid : user = id
    · subst hid
      rw [users_user, Table.get_modify_self, Option.map_map]
      exact Option.map_congr fun stored _ => factors_writeBack hw stored
    · rw [users_user, Table.get_modify_of_ne _ _ hid]
  | deleteUser id => exact hw.elim
  | audit row => rfl
  | token id row => rfl
  | revoke id t => rfl
  | replace id newId => rfl

theorem factors_applyAll (hws : ∀ w ∈ ws, KeepsFactors w) (d : Data) (user : Uuid) :
    ((applyAll ws d).users.get user).map User.factors = (d.users.get user).map User.factors := by
  induction ws generalizing d with
  | nil => rfl
  | cons w ws ih =>
    rw [applyAll_cons, ih fun v hv => hws v (List.mem_cons_of_mem _ hv),
      factors_apply (hws w List.mem_cons_self)]

theorem storedCodes_eq (d : Data) (user : Uuid) :
    storedCodes d user = (((d.users.get user).map User.factors).bind Prod.snd).getD [] := by
  rw [storedCodes, Option.bind_map]
  rfl

/-- **A commit that accepts nothing.** -/
theorem accepts_nothing
    (h : ∀ user, (d'.users.get user).map User.factors = (d.users.get user).map User.factors)
    (hnote : Quiet note) : Accepts note d d' where
  single := hnote.1
  grow user row hrow := by
    have hfactors := h user
    rw [hrow, Option.map_some] at hfactors
    obtain ⟨row', hrow', heq⟩ := Option.map_eq_some_iff.mp hfactors
    refine ⟨row', hrow', ?_⟩
    rw [(Prod.mk.inj heq).1]
    exact StepLe.refl _
  login n hn user k hk := by
    rw [(hnote.2 n hn).1] at hk
    cases hk
  confirm n hn user k hk := by
    rw [(hnote.2 n hn).2.1] at hk
    cases hk
  codes user hash := by
    have hnone : note.filterMap Note.backupCode = [] :=
      List.filterMap_eq_nil_iff.mpr fun n hn => (hnote.2 n hn).2.2
    rw [hnone, List.count_nil, storedCodes_eq, h user, ← storedCodes_eq]
    exact le_refl _

end Keeps

/-! ## Transactions that accept a second factor -/

/-- The user is there, with no earlier time step than in the copy `base`. -/
def Held (user : Uuid) (base : User) (d : Data) : Prop :=
  ∃ row, d.users.get user = some row ∧ StepLe base.totpLastCounter row.totpLastCounter

/-- The writes change one user, from `base` to `cur`. -/
def Written (user : Uuid) (base cur : User) (ws : List DataWrite) : Prop :=
  ∀ d other, (applyAll ws d).users.get other =
    if other = user then (d.users.get other).map (User.writeBack base cur) else d.users.get other

/-- The write is to another table. -/
def OtherTable : DataWrite → Prop
  | .user _ _ _ => False
  | .deleteUser _ => False
  | _ => True

section Accept

variable {user : Uuid} {base cur row : User} {ws : List DataWrite} {d : Data}

theorem Held.mono {d' : Data} (h : Held user base d) (hgrow : StepsGrow d d') :
    Held user base d' := by
  obtain ⟨row, hrow, hle⟩ := h
  obtain ⟨row', hrow', hle'⟩ := hgrow user row hrow
  exact ⟨row', hrow', hle.trans hle'⟩

theorem written_nil (user : Uuid) (base : User) : Written user base base [] := by
  intro d other
  have hsame : User.writeBack base base = id := by
    funext stored
    simp [User.writeBack]
  rw [hsame, Option.map_id, applyAll_nil]
  split <;> rfl

theorem written_user (user : Uuid) (base cur : User) :
    Written user base cur [.user user base cur] := by
  intro d other
  rw [applyAll_cons, applyAll_nil, users_user]
  split
  · rename_i h
    subst h
    exact Table.get_modify_self _ _ _
  · rename_i h
    exact Table.get_modify_of_ne _ _ h

theorem Written.snoc (h : Written user base cur ws) {w : DataWrite} (hw : OtherTable w) :
    Written user base cur (ws ++ [w]) := by
  intro d other
  rw [← h d other, applyAll_append]
  cases w with
  | user id base cur => exact hw.elim
  | deleteUser id => exact hw.elim
  | audit row => rfl
  | token id row => rfl
  | revoke id t => rfl
  | replace id newId => rfl

/-- What a commit that announces `n` does to the row of the user. -/
structure RowAccepts (n : Note) (user : Uuid) (row row' : User) : Prop where
  grow : StepLe row.totpLastCounter row'.totpLastCounter
  login : ∀ k, n.loginStep = some (user, k) →
    (∀ last ∈ row.totpLastCounter, last < k) ∧ row'.totpLastCounter = some k
  confirm : ∀ k, n.confirmStep = some (user, k) → row'.totpLastCounter = some k
  codes : ∀ hash, (row'.backupCodes.getD []).count hash + n.backupCode.toList.count (user, hash) ≤
    (row.backupCodes.getD []).count hash

/-- What a transaction holds that has read a user and changed it. -/
def Accepting (user : Uuid) (base cur : User) (ws : List DataWrite) (d : Data) : Prop :=
  Held user base d ∧ Written user base cur ws

/-- **A commit that accepts something**, by what becomes of the row of the user. -/
theorem Accepting.accepts {n : Note} (h : Accepting user base cur ws d)
    (hlogin : ∀ u k, n.loginStep = some (u, k) → u = user)
    (hconfirm : ∀ u k, n.confirmStep = some (u, k) → u = user)
    (hcode : ∀ u hash, n.backupCode = some (u, hash) → u = user)
    (hrow : ∀ row, d.users.get user = some row → StepLe base.totpLastCounter row.totpLastCounter →
      RowAccepts n user row (User.writeBack base cur row)) : Accepts [n] d (applyAll ws d) := by
  obtain ⟨⟨row, hget, hle⟩, hwritten⟩ := h
  have hself : (applyAll ws d).users.get user = some (User.writeBack base cur row) := by
    rw [hwritten, if_pos rfl, hget]
    rfl
  have hother : ∀ u, u ≠ user → (applyAll ws d).users.get u = d.users.get u := by
    intro u hu
    rw [hwritten, if_neg hu]
  obtain ⟨hgrow, hstep, hconf, hcodes⟩ := hrow row hget hle
  refine ⟨le_refl 1, ?_, ?_, ?_, ?_⟩
  · intro u r hr
    by_cases hu : u = user
    · subst hu
      rw [hget] at hr
      cases hr
      exact ⟨_, hself, hgrow⟩
    · exact ⟨r, (hother u hu).trans hr, StepLe.refl _⟩
  · intro m hm u k hk
    rw [List.mem_singleton] at hm
    subst hm
    obtain rfl := hlogin u k hk
    rw [lastStep, lastStep, hget, hself]
    exact hstep k hk
  · intro m hm u k hk
    rw [List.mem_singleton] at hm
    subst hm
    obtain rfl := hconfirm u k hk
    rw [lastStep, hself]
    exact hconf k hk
  · intro u hash
    by_cases hu : u = user
    · subst hu
      rw [storedCodes, storedCodes, hget, hself]
      have hlist : [n].filterMap Note.backupCode = n.backupCode.toList := by
        cases hn : n.backupCode with
        | none => rw [List.filterMap_cons_none hn]; rfl
        | some x => rw [List.filterMap_cons_some hn]; rfl
      rw [hlist]
      exact hcodes hash
    · rw [storedCodes, storedCodes, hother u hu]
      have hnot : (u, hash) ∉ [n].filterMap Note.backupCode := by
        intro hmem
        obtain ⟨m, hm, hcode'⟩ := List.mem_filterMap.mp hmem
        rw [List.mem_singleton] at hm
        subst hm
        exact hu (hcode u hash hcode')
      rw [List.count_eq_zero_of_not_mem hnot]
      exact le_refl _

theorem lastStep_writeBack {k : ℤ} (hcur : cur.totpLastCounter = some k)
    (hle : StepLe base.totpLastCounter row.totpLastCounter)
    (hrow : ∀ last ∈ row.totpLastCounter, last ≤ k) :
    (User.writeBack base cur row).totpLastCounter = some k := by
  change pick base.totpLastCounter cur.totpLastCounter row.totpLastCounter = some k
  rw [hcur]
  by_cases hbase : base.totpLastCounter = some k
  · -- the column is not written, and what is stored is between the two
    obtain ⟨last, hlast, hge⟩ := hle k hbase
    rw [hbase, pick_same, show row.totpLastCounter = some last from hlast,
      le_antisymm (hrow last hlast) hge]
  · exact pick_of_ne (Ne.symm hbase) _

theorem stepLe_some {x : Option ℤ} {k : ℤ} (h : ∀ last ∈ x, last ≤ k) : StepLe x (some k) :=
  fun a ha => ⟨k, rfl, h a ha⟩

theorem lastStep_writeBack_same (h : cur.totpLastCounter = base.totpLastCounter) (row : User) :
    (User.writeBack base cur row).totpLastCounter = row.totpLastCounter := by
  rw [User.writeBack, h, pick_same]

theorem backupCodes_writeBack_same (h : cur.backupCodes = base.backupCodes) (row : User) :
    (User.writeBack base cur row).backupCodes = row.backupCodes := by
  rw [User.writeBack, h, pick_same]

theorem rowAccepts_none (codes : Option (List String)) (h : cur.factors = base.factors) :
    RowAccepts (.loggedIn user none codes) user row (User.writeBack base cur row) := by
  obtain ⟨hlast, hcodes⟩ := Prod.mk.inj h
  refine ⟨?_, fun k hk => ?_, fun k hk => ?_, fun hash => ?_⟩
  · rw [lastStep_writeBack_same hlast]
    exact StepLe.refl _
  · cases hk
  · cases hk
  · rw [backupCodes_writeBack_same hcodes]
    exact le_refl _

theorem rowAccepts_totp {k : ℤ} (codes : Option (List String)) (hlast : cur.totpLastCounter = some k)
    (hcodes : cur.backupCodes = base.backupCodes)
    (hle : StepLe base.totpLastCounter row.totpLastCounter)
    (hlt : ∀ last ∈ row.totpLastCounter, last < k) :
    RowAccepts (.loggedIn user (some (.totp k)) codes) user row (User.writeBack base cur row) := by
  have hle' : ∀ last ∈ row.totpLastCounter, last ≤ k := fun last h => le_of_lt (hlt last h)
  have hstored := lastStep_writeBack hlast hle hle'
  refine ⟨?_, fun k' hk' => ?_, fun k' hk' => ?_, fun hash => ?_⟩
  · rw [hstored]
    exact stepLe_some hle'
  · cases hk'
    exact ⟨hlt, hstored⟩
  · cases hk'
  · rw [backupCodes_writeBack_same hcodes]
    exact le_refl _

theorem rowAccepts_backup {code : String} (hlast : cur.totpLastCounter = base.totpLastCounter)
    (hcodes : cur.backupCodes = some ((base.backupCodes.getD []).erase code))
    (hmem : code ∈ base.backupCodes.getD []) (hread : row.backupCodes = base.backupCodes) :
    RowAccepts (.loggedIn user (some (.backup code)) base.backupCodes) user row
      (User.writeBack base cur row) := by
  have hstored : (User.writeBack base cur row).backupCodes =
      some ((base.backupCodes.getD []).erase code) := by
    change pick base.backupCodes cur.backupCodes row.backupCodes = _
    rw [hread, pick_base, hcodes]
  refine ⟨?_, fun k hk => ?_, fun k hk => ?_, fun hash => ?_⟩
  · rw [lastStep_writeBack_same hlast]
    exact StepLe.refl _
  · cases hk
  · cases hk
  · rw [hstored, hread, Option.getD_some]
    change _ + [(user, code)].count (user, hash) ≤ _
    by_cases hhash : hash = code
    · subst hhash
      have hpos := List.count_pos_iff.mpr hmem
      rw [List.count_erase_self, List.count_singleton_self]
      omega
    · have hother : [(user, code)].count (user, hash) = 0 :=
        List.count_eq_zero_of_not_mem (by simpa using hhash)
      rw [List.count_erase_of_ne hhash, hother]
      exact le_refl _

theorem rowAccepts_confirmed {k : ℤ} (hlast : cur.totpLastCounter = some k)
    (hcodes : cur.backupCodes = base.backupCodes)
    (hle : StepLe base.totpLastCounter row.totpLastCounter)
    (hle' : ∀ last ∈ row.totpLastCounter, last ≤ k) :
    RowAccepts (.confirmed user k) user row (User.writeBack base cur row) := by
  have hstored := lastStep_writeBack hlast hle hle'
  refine ⟨?_, fun k' hk' => ?_, fun k' hk' => ?_, fun hash => ?_⟩
  · rw [hstored]
    exact stepLe_some hle'
  · cases hk'
  · cases hk'
    exact hstored
  · rw [backupCodes_writeBack_same hcodes]
    exact le_refl _

/-- **A login.** -/
theorem accepts_login {factor : Option Factor} {t : PyTime.Time}
    (h : Accepting user base { factor.elim base base.use with lastLoginAt := some t } ws d)
    (hbackup : ∀ hash, factor = some (.backup hash) → hash ∈ base.backupCodes.getD [])
    (hallowed : (Note.loggedIn user factor base.backupCodes).InOrder d) :
    Accepts [.loggedIn user factor base.backupCodes] d (applyAll ws d) := by
  refine h.accepts (fun u k hk => ?_) (fun u k hk => ?_) (fun u code hk => ?_)
    fun row hget hle => ?_
  · match factor, hk with
    | some (.totp counter), hk => exact (Prod.mk.inj (Option.some.inj hk)).1.symm
  · cases hk
  · match factor, hk with
    | some (.backup hash), hk => exact (Prod.mk.inj (Option.some.inj hk)).1.symm
  · match factor, hbackup, hallowed with
    | none, _, _ => exact rowAccepts_none _ rfl
    | some (.totp counter), _, hallowed =>
      refine rowAccepts_totp _ rfl rfl hle fun last hlast => ?_
      exact hallowed last (Option.bind_eq_some_iff.mpr ⟨row, hget, hlast⟩)
    | some (.backup code), hbackup, hallowed =>
      refine rowAccepts_backup rfl rfl (hbackup code rfl) ?_
      have hstored : (d.users.get user).bind User.backupCodes = base.backupCodes := hallowed
      rwa [hget, Option.bind_some] at hstored

/-- **A confirmation.** -/
theorem accepts_confirmed {k : ℤ}
    (h : Accepting user base { base with is2faEnabled := true, totpLastCounter := some k } ws d)
    (hallowed : (Note.confirmed user k).InOrder d) :
    Accepts [.confirmed user k] d (applyAll ws d) := by
  refine h.accepts (fun u k hk => ?_) (fun u k hk => ?_) (fun u code hk => ?_)
    fun row hget hle => ?_
  · cases hk
  · exact (Prod.mk.inj (Option.some.inj hk)).1.symm
  · cases hk
  · refine rowAccepts_confirmed rfl rfl hle fun last hlast => ?_
    exact hallowed last (Option.bind_eq_some_iff.mpr ⟨row, hget, hlast⟩)

end Accept

/-! ## The routes -/

namespace SecondFactors

variable {d₀ : Data} {p : TxId} {s : Store Data RowKey Note} {α : Type}

theorem factor_publish {ws : List DataWrite} {note : List Note} (hinv : FactorInv d₀ s)
    (h : Accepts note s.data (applyAll ws s.data)) :
    FactorInv d₀ (s.publish p ws note) ∧ StepsGrow s.data (s.publish p ws note).data :=
  ⟨h.factorInv (t := s.publish p ws note) rfl hinv, h.grow⟩

theorem safe_of_keepsFactors {m : Handler α} (hm : m.Only KeepsFactors Quiet fun _ => True) :
    m.Safe (factorDiscipline d₀) p anyEnd [] s := by
  refine (hm.safe_of_all ?_ (List.forall_mem_nil _)).mono fun _ _ _ _ => trivial
  intro ws t note hnote hinv hws _
  exact factor_publish hinv (accepts_nothing (factors_applyAll hws t.data) hnote)

/-- What a transaction has read and written about a user outlasts the others. -/
theorem stable_accepting (user : Uuid) (base cur : User) :
    Stable (factorDiscipline d₀) p fun ws s => Accepting user base cur ws s.data :=
  Stable.of_data fun _ _ _ hst h => ⟨h.1.mono hst, h.2⟩

theorem safe_flushUser {base cur : User} {user : Uuid} {f : Bool → Handler α}
    (hheld : Held user base s.data)
    (hf : ∀ b ws t, Accepting user base cur ws t.data →
      (f b).Safe (factorDiscipline d₀) p anyEnd ws t) :
    (flushUser user base cur >>= f).Safe (factorDiscipline d₀) p anyEnd [] s := by
  unfold flushUser
  split
  · rename_i hsame
    subst hsame
    exact hf true [] s ⟨hheld, written_nil _ _⟩
  · refine safe_update _ _ fun t hst _ _ => hf _ _ _ ⟨?_, written_user _ _ _⟩
    rw [Store.data_lock]
    exact hheld.mono hst

theorem safe_otherTable {base cur : User} {β : Type} {user : Uuid} {ws : List DataWrite}
    {m : Handler β}
    {f : β → Handler α} {C : β → Prop} (hm : m.Only OtherTable (fun _ => False) C)
    (h : Accepting user base cur ws s.data)
    (hf : ∀ b ws t, C b → Accepting user base cur ws t.data →
      (f b).Safe (factorDiscipline d₀) p anyEnd ws t) :
    (m >>= f).Safe (factorDiscipline d₀) p anyEnd ws s :=
  (stable_accepting user base cur).bind (fun _ _ _ hw h => ⟨h.1, h.2.snoc hw⟩) hm h hf

theorem mem_backupCodes_of_acceptFactor {user : User} {c : Crypto} {code : String} {now : ℤ}
    {hash : String} (h : acceptFactor c user code now = .ok (some (.backup hash))) :
    hash ∈ user.backupCodes.getD [] := by
  have hbackup : ∀ {hash}, backupFactor c user code = some (.backup hash) →
      hash ∈ user.backupCodes.getD [] := by
    intro hash hcode
    obtain ⟨x, hx, heq⟩ := Option.map_eq_some_iff.mp hcode
    cases heq
    exact List.mem_of_find?_eq_some hx
  have hok : ∀ {x}, (Except.ok x : Except PyExc (Option Factor)) = .ok (some (.backup hash)) →
      x = some (.backup hash) := fun h => Except.ok.inj h
  unfold acceptFactor at h
  split at h
  · exact hbackup (hok h)
  · split at h
    · exact hbackup (hok h)
    · split at h
      · cases h
      · split at h
        · cases h
        · exact hbackup (hok h)
        · split at h
          · cases h
          · exact hbackup (hok h)

theorem safe_completeLogin {user : User} (c : Crypto) (settings : AuthSettings) {id : Uuid}
    {factor : Option Factor} (ip : Option String) (hheld : Held id user s.data)
    (hbackup : ∀ hash, factor = some (.backup hash) → hash ∈ user.backupCodes.getD []) :
    (completeLogin c settings id user factor ip).Safe (factorDiscipline d₀) p anyEnd [] s := by
  refine safe_answer _ fun t₁ e h₁ _ => safe_flushUser (hheld.mono h₁) fun found ws t h => ?_
  cases found with
  | false => exact safe_pure trivial
  | true =>
    refine safe_otherTable (only_appendAudit (fun _ => trivial) _ _ _ _ _) h fun _ ws t _ h => ?_
    refine safe_otherTable (only_issueTokens _ _ _ _) h fun issued ws t _ h => ?_
    refine safe_otherTable (only_insertToken fun _ => trivial) h fun _ ws t _ h => ?_
    refine safe_publish _ fun u htu hinv hallowed => ?_
    obtain ⟨hinv', hgrow⟩ := factor_publish (p := p) hinv
      (accepts_login ⟨h.1.mono htu, h.2⟩ hbackup (hallowed _ List.mem_cons_self))
    exact ⟨hinv', hgrow, safe_pure trivial⟩

theorem safe_login (c : Crypto) (settings : AuthSettings) (body : LoginRequest) :
    (login c settings body).Safe (factorDiscipline d₀) p anyEnd [] s := by
  refine safe_select _ fun t₀ _ _ => safe_answer _ fun t₁ e h₁ _ => ?_
  have hrefuse : ∀ action actor detail t,
      (refuseLogin c action actor body.ip detail).Safe (factorDiscipline d₀) p anyEnd [] t :=
    fun _ _ _ _ => safe_of_keepsFactors (only_refuseLogin (fun _ => trivial) quiet_nil _ _ _ _ _)
  split
  · exact hrefuse _ _ _ _
  · rename_i id user hrow
    have hmem := Table.mem_rowsWhere.mp (List.mem_of_getElem? hrow)
    have hheld : Held id user t₁.data := h₁ id user hmem.1
    split_ifs
    · exact hrefuse _ _ _ _
    · exact hrefuse _ _ _ _
    · refine safe_answer _ fun t₂ e₂ h₂ _ => ?_
      split
      · exact safe_pure trivial
      · exact hrefuse _ _ _ _
      · rename_i factor haccept
        refine safe_completeLogin c settings body.ip (hheld.mono h₂) fun hash hfactor => ?_
        rw [hfactor] at haccept
        exact mem_backupCodes_of_acceptFactor haccept
    · exact safe_pure trivial
    · exact safe_completeLogin c settings body.ip hheld fun _ h => by cases h

theorem safe_totpConfirm (c : Crypto) (settings : AuthSettings) (credentials : Credentials)
    (code : String) :
    (totpConfirm c settings credentials code).Safe (factorDiscipline d₀) p anyEnd [] s := by
  refine (safe_getCurrentUser credentials).bind fun r ws t hr => ?_
  obtain ⟨rfl, hread⟩ := hr
  cases r with
  | error e => exact safe_pure trivial
  | ok x =>
    obtain ⟨id, user⟩ := x
    have hheld : Held id user t.data := ⟨user, hread _ rfl, StepLe.refl _⟩
    dsimp only
    split
    · split
      · exact safe_pure trivial
      · refine safe_answer Env.now ?_
        intro t₁ e h₁ _
        split
        · exact safe_pure trivial
        · exact safe_pure trivial
        · rename_i counter hcounter
          refine safe_flushUser (hheld.mono h₁) fun found ws t h => ?_
          cases found with
          | false => exact safe_pure trivial
          | true =>
            refine safe_otherTable (only_appendAudit (fun _ => trivial) _ _ _ _ _) h
              fun _ ws t _ h => ?_
            refine safe_otherTable (only_issueTokens _ _ _ _) h fun issued ws t _ h => ?_
            refine safe_otherTable (only_insertToken fun _ => trivial) h fun _ ws t _ h => ?_
            refine safe_publish _ fun u htu hinv hallowed => ?_
            obtain ⟨hinv', hgrow⟩ := factor_publish (p := p) hinv
              (accepts_confirmed ⟨h.1.mono htu, h.2⟩ (hallowed _ List.mem_cons_self))
            exact ⟨hinv', hgrow, safe_pure trivial⟩
    · exact safe_pure trivial

theorem safe_authRoute (c : Crypto) (settings : AuthSettings) (request : AuthRequest) :
    (authRoute c settings request).Safe (factorDiscipline d₀) p anyEnd [] s := by
  cases request with
  | login body => exact (safe_login c settings body).bind fun _ _ _ _ => trivial
  | totpConfirm credentials code =>
    exact (safe_totpConfirm c settings credentials code).bind fun _ _ _ _ => trivial
  | refresh token =>
    refine Prog.Safe.bind (safe_of_keepsFactors ?_) fun _ _ _ _ => trivial
    exact only_refresh (fun _ => trivial) (fun _ _ => trivial) (fun _ _ => trivial)
      (fun _ _ => trivial) (fun _ => quiet_singleton ⟨rfl, rfl, rfl⟩)
      (fun _ _ => quiet_singleton ⟨rfl, rfl, rfl⟩) c settings token
  | logout credentials tokenHash =>
    refine Prog.Safe.bind (safe_of_keepsFactors ?_) fun _ _ _ _ => trivial
    exact only_logout (fun _ => trivial) (fun _ _ => trivial) quiet_nil c credentials tokenHash
  | changePassword credentials current new =>
    refine Prog.Safe.bind (safe_of_keepsFactors ?_) fun _ _ _ _ => trivial
    exact only_changePassword (fun _ => trivial) (fun _ _ => trivial) (fun _ _ _ => rfl) quiet_nil c
      credentials current new

end SecondFactors

/-! ## Runs -/

/-- **Second factors are single-use**, between the states `g` and `g'` of a run that began with `d₀`:
every time step is accepted by a login once, none that a confirmation has accepted is accepted by a login
later, the last time step of a user does not go back, and every backup code is accepted as often as it was
on the list. -/
structure SingleUse (d₀ : Data) (g g' : Engine Data RowKey DataWrite Env Note) : Prop where
  steps : (g'.store.events.filterMap Note.loginStep).Nodup
  confirmed : g'.store.events.Pairwise fun later earlier =>
    ∀ x, later.loginStep = some x → earlier.confirmStep ≠ some x
  counters : ∀ user, StepLe (lastStep g.store.data user) (lastStep g'.store.data user)
  codes : ∀ user hash, (g'.store.events.filterMap Note.backupCode).count (user, hash) ≤
    (storedCodes d₀ user).count hash

theorem factorInv_start {s : Store Data RowKey Note} (hs : s.events = []) : FactorInv s.data s where
  stored n hn := by
    rw [hs] at hn
    exact absurd hn List.not_mem_nil
  once := by
    rw [hs]
    exact List.Pairwise.nil
  codes user hash := by
    rw [hs, List.filterMap_nil, List.count_nil]
    exact le_refl _

/-- **Second factors are single-use** in every run whose commits meet the condition. -/
theorem single_use (c : Crypto) (settings : AuthSettings) {s : Store Data RowKey Note}
    (hs : s.events = []) {g g' : Engine Data RowKey DataWrite Env Note}
    (hrun : Runs (authStep c settings) (CommitsOnly FactorsInOrder) (Engine.start s) g)
    (hrun' : Runs (authStep c settings) (CommitsOnly FactorsInOrder) g g') :
    SingleUse s.data g g' := by
  have hroutes : ∀ p request t, FactorInv s.data t →
      (authRoute c settings request).Safe (factorDiscipline s.data) p anyEnd [] t :=
    fun _ request _ _ => SecondFactors.safe_authRoute c settings request
  have hsafe : AllSafe (factorDiscipline s.data) g :=
    allSafe_of_runs hroutes (allSafe_start (factorInv_start hs))
      (permits_of_commits (fun _ _ _ => trivial) hrun)
  have hpermitted : Runs (authStep c settings) (factorDiscipline s.data).Permits g g' :=
    permits_of_commits (fun _ _ _ => trivial) hrun'
  have hinv : FactorInv s.data g'.store := invariant_of_runs hroutes hsafe hpermitted
  have hgrow : StepsGrow g.store.data g'.store.data :=
    preserved_of_runs (M := fun t u => StepsGrow t.data u.data) hroutes
      (fun t => StepsGrow.refl t.data) (fun _ _ _ => StepsGrow.trans) (fun _ _ _ h => h) hsafe
      hpermitted
  refine ⟨?_, ?_, hgrow.lastStep, fun user hash => ?_⟩
  · rw [List.Nodup, List.pairwise_filterMap]
    refine hinv.once.imp fun hearlier x hx y hy hxy => ?_
    subst hxy
    exact (hearlier x hx).1 hy
  · exact hinv.once.imp fun hearlier x hx => (hearlier x hx).2
  · exact le_trans (Nat.le_add_left _ _) (hinv.codes user hash)

/-- **A time step is accepted twice**: a login with step 10, a confirmation with step 9, and a login with
step 10 again. -/
theorem step_accepted_twice : ¬ ∀ (c : Crypto) (settings : AuthSettings) (s : Store Data RowKey Note),
    s.events = [] → ∀ g g', Runs (authStep c settings) anyAction (Engine.start s) g →
      Runs (authStep c settings) anyAction g g' → SingleUse s.data g g' := by
  intro h
  obtain ⟨g, hrun, hg⟩ := exists_runs_of_exec (G := anyAction)
    (authStep exampleCrypto exampleSettings) (Engine.start oneUser)
    ([.begin 0 (exampleLoginWith "10")] ++ statements 0 18 ++
      [.begin 0 (.totpConfirm (.user 0) "9")] ++ statements 0 16 ++
      [.begin 0 (exampleLoginWith "10")] ++ statements 0 18)
    (p := fun g => decide (g.store.events.filterMap Note.loginStep = [(0, 10), (0, 10)]))
    (by decide +kernel)
  have hsingle := (h exampleCrypto exampleSettings oneUser rfl g g hrun (Runs.refl g)).steps
  rw [of_decide_eq_true hg] at hsingle
  exact absurd hsingle (by decide)

/-- A login with step 9, a confirmation with step 10, a login with step 11 and one with the backup code. -/
theorem single_use_in_order : ∃ g, Runs (authStep exampleCrypto exampleSettings)
      (CommitsOnly FactorsInOrder) (Engine.start oneUser) g ∧
    g.store.events.length = 4 ∧ SingleUse oneUser.data g g := by
  obtain ⟨g, hrun, hg⟩ := exists_runs_of_exec (G := CommitsOnly FactorsInOrder)
    (authStep exampleCrypto exampleSettings) (Engine.start oneUser)
    ([.begin 0 (exampleLoginWith "9")] ++ statements 0 18 ++
      [.begin 0 (.totpConfirm (.user 0) "10")] ++ statements 0 16 ++
      [.begin 0 (exampleLoginWith "11")] ++ statements 0 18 ++
      [.begin 0 (exampleLoginWith "backup")] ++ statements 0 18)
    (p := fun g => decide (g.store.events.length = 4)) (by decide +kernel)
  exact ⟨g, hrun, of_decide_eq_true hg,
    single_use exampleCrypto exampleSettings rfl hrun (Runs.refl g)⟩

end AssetInventory.Server
