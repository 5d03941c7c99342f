import AssetInventory.Server.Auth

/-!
# The rotation of refresh tokens

A refresh token is exchanged for a new one of its family, and is revoked by that.  A token that was revoked
and is presented again makes the server revoke the whole family.  The exchange decides on the token as it
was read, and the revocation of a family does not see a token that another exchange has not committed yet.

* `TokensUpToDate`: the condition on a commit, that an exchanged token is not yet revoked, and that no
  token of a revoked family is left that the revocation has not seen.
* `rotatesOnce_of_runs`: in every run whose commits meet the condition a token is exchanged once, a family
  has one token that is not revoked, and none after a replay.
* `exchanged_twice`: two exchanges of one token.

New ids, hashes and families are numbers that the transaction has drawn: `Mine` says that nobody else uses
one, and `TokensGrow` is why that stays so.
-/

namespace AssetInventory.Server

open PyJson PyTime Orm RowStore ReadCommitted Interleaving

/-! ## The condition -/

/-- What a commit announces is true of the tokens as they are stored. -/
def Note.UpToDate (stored : Data) : Note → Prop
  | .exchanged h =>
    ∀ x ∈ stored.tokens.rowsWhere fun r => decide (r.tokenHash = h), x.2.revokedAt = none
  | .replayed family seen =>
    ∀ x ∈ stored.tokens.rowsWhere fun r => decide (r.familyId = family) && r.revokedAt.isNone,
      x.1 ∈ seen
  | _ => True

instance (stored : Data) : DecidablePred (Note.UpToDate stored)
  | .exchanged _ => by unfold Note.UpToDate; infer_instance
  | .replayed _ _ => by unfold Note.UpToDate; infer_instance
  | .loggedIn _ _ _ => isTrue trivial
  | .confirmed _ _ => isTrue trivial
  | .administered _ _ => isTrue trivial

/-- **The condition on a commit**: the token that it exchanges is not revoked, and of the family that it
revokes no token has come since the revocation began, unless it is revoked. -/
def TokensUpToDate (s : Store Data RowKey Note) (_ : List DataWrite) (note : List Note) : Prop :=
  ∀ n ∈ note, n.UpToDate s.data

instance (s : Store Data RowKey Note) (pending : List DataWrite) (note : List Note) :
    Decidable (TokensUpToDate s pending note) := by
  unfold TokensUpToDate
  infer_instance

/-! ## What writes do to tokens -/

/-- A token later on: it may have been revoked. -/
structure RefreshToken.Later (r r' : RefreshToken) : Prop where
  hash : r'.tokenHash = r.tokenHash
  family : r'.familyId = r.familyId
  revoked : r.revokedAt.isSome = true → r'.revokedAt.isSome = true

theorem RefreshToken.Later.refl (r : RefreshToken) : r.Later r := ⟨rfl, rfl, id⟩

variable {r r' row : RefreshToken}

theorem RefreshToken.Later.trans {r'' : RefreshToken} (h : r.Later r') (h' : r'.Later r'') :
    r.Later r'' :=
  ⟨h'.hash.trans h.hash, h'.family.trans h.family, fun hr => h'.revoked (h.revoked hr)⟩

section Writes

variable {w : DataWrite} {ws : List DataWrite} {d : Data} {id : Uuid} {r r' : RefreshToken}

theorem later_modify {tokens : Table Uuid RefreshToken} {k : Uuid} {f : RefreshToken → RefreshToken}
    (hf : ∀ r : RefreshToken, r.Later (f r)) (h : tokens.get id = some r) :
    ∃ r', (tokens.modify k f).get id = some r' ∧ r.Later r' ∧ (id = k → r' = f r) ∧
      (id ≠ k → r' = r) := by
  by_cases hid : id = k
  · subst hid
    refine ⟨f r, ?_, hf r, fun _ => rfl, fun hne => absurd rfl hne⟩
    rw [Table.get_modify_self, h]
    rfl
  · refine ⟨r, ?_, RefreshToken.Later.refl r, fun heq => absurd heq hid, fun _ => rfl⟩
    rwa [Table.get_modify_of_ne _ _ hid]

/-- **One write** keeps every token; it revokes one if it says so. -/
theorem later_apply (w : DataWrite) (h : d.tokens.get id = some r) :
    ∃ r', (Applies.apply w d).tokens.get id = some r' ∧ r.Later r' ∧
      ((∃ t, w = .revoke id t) → r'.revokedAt.isSome = true) ∧
      (r'.revokedAt.isSome = true → r.revokedAt.isSome = true ∨ ∃ t, w = .revoke id t) := by
  have hsame : ∀ {tokens : Table Uuid RefreshToken}, tokens.get id = some r →
      (¬ ∃ t, w = .revoke id t) → ∃ r', tokens.get id = some r' ∧ r.Later r' ∧
      ((∃ t, w = .revoke id t) → r'.revokedAt.isSome = true) ∧
      (r'.revokedAt.isSome = true → r.revokedAt.isSome = true ∨ ∃ t, w = .revoke id t) :=
    fun h hw => ⟨r, h, RefreshToken.Later.refl r, fun hr => absurd hr hw, Or.inl⟩
  cases w with
  | user k base cur => exact hsame h (by rintro ⟨t, ⟨⟩⟩)
  | deleteUser k => exact hsame h (by rintro ⟨t, ⟨⟩⟩)
  | audit row => exact hsame h (by rintro ⟨t, ⟨⟩⟩)
  | token k row => exact hsame (Table.get_insert_of_get h) (by rintro ⟨t, ⟨⟩⟩)
  | replace k k' =>
    obtain ⟨r', hr', hlater, hself, hother⟩ :=
      later_modify (k := k) (f := fun r => { r with replacedBy := some k' })
        (fun r => ⟨rfl, rfl, fun hr => hr⟩) h
    refine ⟨r', hr', hlater, by rintro ⟨t, ⟨⟩⟩, fun hrevoked => Or.inl ?_⟩
    by_cases hid : id = k
    · rw [hself hid] at hrevoked
      exact hrevoked
    · rw [hother hid] at hrevoked
      exact hrevoked
  | revoke k t =>
    obtain ⟨r', hr', hlater, hself, hother⟩ :=
      later_modify (k := k) (f := fun r => { r with revokedAt := some t })
        (fun r => ⟨rfl, rfl, fun _ => rfl⟩) h
    refine ⟨r', hr', hlater, ?_, fun hrevoked => ?_⟩
    · rintro ⟨t', ⟨⟩⟩
      rw [hself rfl]
      rfl
    · by_cases hid : id = k
      · subst hid
        exact Or.inr ⟨t, rfl⟩
      · rw [hother hid] at hrevoked
        exact Or.inl hrevoked

/-- **Some writes** keep every token; they revoke those that they say. -/
theorem later_applyAll (ws : List DataWrite) (h : d.tokens.get id = some r) :
    ∃ r', (applyAll ws d).tokens.get id = some r' ∧ r.Later r' ∧
      ((∃ t, .revoke id t ∈ ws) → r'.revokedAt.isSome = true) ∧
      (r'.revokedAt.isSome = true → r.revokedAt.isSome = true ∨ ∃ t, .revoke id t ∈ ws) := by
  induction ws generalizing d r with
  | nil =>
    refine ⟨r, h, RefreshToken.Later.refl r, ?_, Or.inl⟩
    rintro ⟨t, ht⟩
    exact absurd ht List.not_mem_nil
  | cons w ws ih =>
    obtain ⟨r₁, hr₁, hlater₁, hrevoke₁, hrevoked₁⟩ := later_apply w h
    obtain ⟨r₂, hr₂, hlater₂, hrevoke₂, hrevoked₂⟩ := ih hr₁
    refine ⟨r₂, hr₂, hlater₁.trans hlater₂, ?_, fun hrevoked => ?_⟩
    · rintro ⟨t, ht⟩
      rcases List.mem_cons.mp ht with rfl | ht
      · exact hlater₂.revoked (hrevoke₁ ⟨t, rfl⟩)
      · exact hrevoke₂ ⟨t, ht⟩
    · rcases hrevoked₂ hrevoked with hr | ⟨t, ht⟩
      · rcases hrevoked₁ hr with hr | ⟨t, rfl⟩
        · exact Or.inl hr
        · exact Or.inr ⟨t, List.mem_cons_self⟩
      · exact Or.inr ⟨t, List.mem_cons_of_mem _ ht⟩

/-- A token after some writes was there before, or is one that they insert. -/
theorem new_applyAll (h : (applyAll ws d).tokens.get id = some r') (hnone : d.tokens.get id = none) :
    ∃ row, .token id row ∈ ws ∧ row.Later r' := by
  induction ws generalizing d with
  | nil =>
    rw [applyAll_nil, hnone] at h
    cases h
  | cons w ws ih =>
    cases hafter : (Applies.apply w d).tokens.get id with
    | none =>
      obtain ⟨row, hrow, hlater⟩ := ih h hafter
      exact ⟨row, List.mem_cons_of_mem _ hrow, hlater⟩
    | some r₁ =>
      obtain ⟨r₂, hr₂, hlater, -⟩ := later_applyAll ws hafter
      rw [applyAll_cons, hr₂] at h
      cases h
      have hmodify : ∀ {k : Uuid} {f : RefreshToken → RefreshToken},
          (d.tokens.modify k f).get id = some r₁ → False := by
        intro k f hk
        rcases Table.get_modify_cases hk with ⟨rfl, r, hr, -⟩ | ⟨-, hr⟩
        · rw [hnone] at hr
          cases hr
        · rw [hnone] at hr
          cases hr
      cases w with
      | token k row =>
        rcases Table.get_insert_cases hafter with ⟨rfl, rfl, -⟩ | hold
        · exact ⟨r₁, List.mem_cons_self, hlater⟩
        · rw [hnone] at hold
          cases hold
      | revoke k t => exact (hmodify hafter).elim
      | replace k k' => exact (hmodify hafter).elim
      | user k base cur =>
        rw [tokens_user, hnone] at hafter
        cases hafter
      | deleteUser k =>
        rw [tokens_deleteUser, hnone] at hafter
        cases hafter
      | audit row =>
        rw [tokens_audit, hnone] at hafter
        cases hafter

end Writes

/-! ## The invariant -/

/-- The tokens, the count of the numbers drawn so far, and what has been announced. -/
structure RotationInv (d : Data) (n : ℕ) (events : List Note) : Prop where
  /-- What identifies a token has been drawn. -/
  drawn : ∀ id r, d.tokens.get id = some r → id < n ∧ r.tokenHash < n ∧ r.familyId < n
  hashes : ∀ id id' r r', d.tokens.get id = some r → d.tokens.get id' = some r' →
    r.tokenHash = r'.tokenHash → id = id'
  /-- A family has at most one token that is not revoked. -/
  live : ∀ id id' r r', d.tokens.get id = some r → d.tokens.get id' = some r' →
    r.revokedAt = none → r'.revokedAt = none → r.familyId = r'.familyId → id = id'
  /-- A token that has been exchanged is revoked. -/
  exchanged : ∀ h, .exchanged h ∈ events →
    ∃ id r, d.tokens.get id = some r ∧ r.tokenHash = h ∧ r.revokedAt.isSome = true
  once : ∀ h, events.count (.exchanged h) ≤ 1
  /-- After a replay the family has tokens, and all are revoked. -/
  replayed : ∀ family seen, .replayed family seen ∈ events →
    (∃ id r, d.tokens.get id = some r ∧ r.familyId = family) ∧
    ∀ id r, d.tokens.get id = some r → r.familyId = family → r.revokedAt.isSome = true

theorem RotationInv.mono {d : Data} {n n' : ℕ} {events : List Note} (h : RotationInv d n events)
    (hn : n ≤ n') : RotationInv d n' events where
  drawn id r hr := by
    obtain ⟨h₁, h₂, h₃⟩ := h.drawn id r hr
    exact ⟨h₁.trans_le hn, h₂.trans_le hn, h₃.trans_le hn⟩
  hashes := h.hashes
  live := h.live
  exchanged := h.exchanged
  once := h.once
  replayed := h.replayed

/-- The transaction has drawn the number, and no token uses it. -/
structure Mine (p : TxId) (n : ℕ) (s : Store Data RowKey Note) : Prop where
  drawn : s.drawn[n]? = some p
  unused : ∀ id r, s.data.tokens.get id = some r → id ≠ n ∧ r.tokenHash ≠ n ∧ r.familyId ≠ n

/-- What the others do, as far as `p` has to know: they draw other numbers, keep every token and insert
tokens with numbers of theirs or into families that are there. -/
structure TokensGrow (p : TxId) (s t : Store Data RowKey Note) : Prop where
  drawn : ∀ n : ℕ, t.drawn[n]? = some p ↔ s.drawn[n]? = some p
  old : ∀ id r, s.data.tokens.get id = some r →
    ∃ r', t.data.tokens.get id = some r' ∧ r.Later r'
  new : ∀ id r', t.data.tokens.get id = some r' → s.data.tokens.get id = none →
    t.drawn[id]? ≠ some p ∧ t.drawn[r'.tokenHash]? ≠ some p ∧
      (t.drawn[r'.familyId]? ≠ some p ∨
        ∃ id₀ r₀, s.data.tokens.get id₀ = some r₀ ∧ r₀.familyId = r'.familyId)

section Grow

variable {p : TxId} {s t u : Store Data RowKey Note} {n : ℕ}

theorem tokensGrow_of_eq (hdata : t.data = s.data)
    (hdrawn : ∀ n : ℕ, t.drawn[n]? = some p ↔ s.drawn[n]? = some p) : TokensGrow p s t where
  drawn := hdrawn
  old id r hr := ⟨r, hdata ▸ hr, RefreshToken.Later.refl r⟩
  new id r' hr' hnone := by
    rw [hdata, hnone] at hr'
    cases hr'

theorem TokensGrow.refl (p : TxId) (s : Store Data RowKey Note) : TokensGrow p s s :=
  tokensGrow_of_eq rfl fun _ => Iff.rfl

/-- The family of a token of `t` that `s` does not have is not one of `p`, or is there in `s`. -/
theorem TokensGrow.family (h : TokensGrow p s t) {id : Uuid} (hr : t.data.tokens.get id = some r) :
    t.drawn[r.familyId]? ≠ some p ∨
      ∃ id₀ r₀, s.data.tokens.get id₀ = some r₀ ∧ r₀.familyId = r.familyId := by
  cases hold : s.data.tokens.get id with
  | none => exact (h.new id r hr hold).2.2
  | some r₀ =>
    obtain ⟨r', hr', hlater⟩ := h.old id r₀ hold
    rw [hr] at hr'
    cases hr'
    exact Or.inr ⟨id, r₀, hold, hlater.family.symm⟩

theorem TokensGrow.trans (hst : TokensGrow p s t) (htu : TokensGrow p t u) : TokensGrow p s u where
  drawn n := (htu.drawn n).trans (hst.drawn n)
  old id r hr := by
    obtain ⟨r', hr', hlater⟩ := hst.old id r hr
    obtain ⟨r'', hr'', hlater'⟩ := htu.old id r' hr'
    exact ⟨r'', hr'', hlater.trans hlater'⟩
  new id r'' hr'' hnone := by
    have hu : ∀ {n}, t.drawn[n]? ≠ some p → u.drawn[n]? ≠ some p :=
      fun ht hu => ht ((htu.drawn _).mp hu)
    cases hmiddle : t.data.tokens.get id with
    | none =>
      obtain ⟨hid, hhash, hfamily⟩ := htu.new id r'' hr'' hmiddle
      refine ⟨hid, hhash, ?_⟩
      rcases hfamily with hfamily | ⟨id₀, r₀, hr₀, hfamily⟩
      · exact Or.inl hfamily
      · rw [← hfamily]
        rcases hst.family hr₀ with hfamily₀ | hfamily₀
        · exact Or.inl (hu hfamily₀)
        · exact Or.inr hfamily₀
    | some r' =>
      obtain ⟨hid, hhash, hfamily⟩ := hst.new id r' hmiddle hnone
      obtain ⟨r₁, hr₁, hlater⟩ := htu.old id r' hmiddle
      rw [hr''] at hr₁
      cases hr₁
      rw [hlater.hash, hlater.family]
      refine ⟨hu hid, hu hhash, ?_⟩
      rcases hfamily with hfamily | hfamily
      · exact Or.inl (hu hfamily)
      · exact Or.inr hfamily

/-- **A number stays unused by the others.** -/
theorem Mine.mono (h : Mine p n s) (hst : TokensGrow p s t) : Mine p n t where
  drawn := (hst.drawn n).mpr h.drawn
  unused id r hr := by
    have hn : t.drawn[n]? = some p := (hst.drawn n).mpr h.drawn
    cases hold : s.data.tokens.get id with
    | some r₀ =>
      obtain ⟨r', hr', hlater⟩ := hst.old id r₀ hold
      rw [hr] at hr'
      cases hr'
      rw [hlater.hash, hlater.family]
      exact h.unused id r₀ hold
    | none =>
      obtain ⟨hid, hhash, hfamily⟩ := hst.new id r hr hold
      refine ⟨fun heq => hid (heq ▸ hn), fun heq => hhash (heq ▸ hn), fun heq => ?_⟩
      rcases hfamily with hfamily | ⟨id₀, r₀, hr₀, hfamily⟩
      · exact hfamily (heq ▸ hn)
      · exact (h.unused id₀ r₀ hr₀).2.2 (hfamily.trans heq)

theorem mine_draw (h : RotationInv s.data s.drawn.length s.events) :
    Mine p s.drawn.length (s.draw p) where
  drawn := by simp [Store.draw]
  unused id r hr := by
    obtain ⟨hid, hhash, hfamily⟩ := h.drawn id r hr
    exact ⟨Nat.ne_of_lt hid, Nat.ne_of_lt hhash, Nat.ne_of_lt hfamily⟩

end Grow

/-- The transactions keep the invariant; each uses only numbers of its own for new tokens. -/
def rotationDiscipline : Discipline Data RowKey DataWrite Note where
  Inv s := RotationInv s.data s.drawn.length s.events
  Rely := TokensGrow
  Guar p s t := ∀ q, q ≠ p → TokensGrow q s t
  Allowed := TokensUpToDate
  rely_refl := TokensGrow.refl
  rely_trans _ _ _ _ := TokensGrow.trans
  rely_of_guar _ q _ _ hq h := h q hq
  guar_refl _ s q _ := TokensGrow.refl q s
  lock_ok p s row hinv _ := by
    refine ⟨?_, fun q _ => tokensGrow_of_eq (Store.data_lock s p row) fun n => ?_⟩
    · rw [Store.data_lock, Store.drawn_lock, Store.events_lock]
      exact hinv
    · rw [Store.drawn_lock]
  release_ok p s hinv := ⟨hinv, fun q _ => tokensGrow_of_eq rfl fun _ => Iff.rfl⟩
  unlock_ok p s _ hinv := ⟨hinv, fun q _ => tokensGrow_of_eq rfl fun _ => Iff.rfl⟩
  draw_ok p s hinv :=
    ⟨hinv.mono (by simp [Store.draw]), fun q hq => tokensGrow_of_eq rfl (s.getElem?_drawn_draw p hq)⟩

/-! ## Commits -/

/-- What a transaction is about to commit: at most one new token, of a new family or in the place of a token
that is not revoked. -/
structure Rotates (p : TxId) (ws : List DataWrite) (note : List Note) (s : Store Data RowKey Note) :
    Prop where
  single : ∀ id row id' row', .token id row ∈ ws → .token id' row' ∈ ws → id = id' ∧ row = row'
  new : ∀ id row, .token id row ∈ ws → Mine p id s ∧ Mine p row.tokenHash s ∧
    (Mine p row.familyId s ∨ ∃ old r, s.data.tokens.get old = some r ∧ r.revokedAt = none ∧
      r.familyId = row.familyId ∧ ∃ t, .revoke old t ∈ ws)
  announced : note.length ≤ 1
  exchanged : ∀ h, .exchanged h ∈ note → ∃ id r, s.data.tokens.get id = some r ∧ r.tokenHash = h ∧
    r.revokedAt = none ∧ ∃ t, .revoke id t ∈ ws
  replayed : ∀ family seen, .replayed family seen ∈ note → (∀ id row, .token id row ∉ ws) ∧
    (∃ id r, s.data.tokens.get id = some r ∧ r.familyId = family) ∧
    ∀ id r, s.data.tokens.get id = some r → r.familyId = family →
      r.revokedAt.isSome = true ∨ ∃ t, .revoke id t ∈ ws

section Publish

variable {p : TxId} {ws : List DataWrite} {note : List Note} {s : Store Data RowKey Note}

theorem Mine.lt {n : ℕ} (h : Mine p n s) : n < s.drawn.length := by
  obtain ⟨hlt, -⟩ := List.getElem?_eq_some_iff.mp h.drawn
  exact hlt

theorem applyAll_cases {d : Data} {id : Uuid} (h : (applyAll ws d).tokens.get id = some r') :
    (∃ r, d.tokens.get id = some r ∧ r.Later r' ∧
      ((∃ t, .revoke id t ∈ ws) → r'.revokedAt.isSome = true)) ∨
    (∃ row, .token id row ∈ ws ∧ row.Later r') := by
  cases hold : d.tokens.get id with
  | some r =>
    obtain ⟨r₁, hr₁, hlater, hrevoke, -⟩ := later_applyAll ws hold
    rw [h] at hr₁
    cases hr₁
    exact Or.inl ⟨r, rfl, hlater, hrevoke⟩
  | none => exact Or.inr (new_applyAll h hold)

theorem RefreshToken.Later.live (h : r.Later r') (hr' : r'.revokedAt = none) :
    r.revokedAt = none := by
  cases hr : r.revokedAt with
  | none => rfl
  | some t =>
    have hsome := h.revoked (by rw [hr]; rfl)
    rw [hr'] at hsome
    cases hsome

theorem Rotates.not_live (h : Rotates p ws note s) (hinv : RotationInv s.data s.drawn.length s.events)
    {id id' : Uuid} (hrow : .token id row ∈ ws)
    (hr : s.data.tokens.get id' = some r) (hlater : r.Later r')
    (hrevoke : (∃ t, .revoke id' t ∈ ws) → r'.revokedAt.isSome = true) (hlive : r'.revokedAt = none) :
    r.familyId ≠ row.familyId := by
  intro hfamily
  rcases (h.new id row hrow).2.2 with hmine | ⟨old, r₀, hr₀, hlive₀, hfamily₀, hrevoked⟩
  · exact (hmine.unused id' r hr).2.2 hfamily
  · obtain rfl := hinv.live id' old r r₀ hr hr₀ (hlater.live hlive) hlive₀ (hfamily.trans hfamily₀.symm)
    exact Option.isSome_iff_ne_none.mp (hrevoke hrevoked) hlive

theorem Rotates.hash_ne (h : Rotates p ws note s) {id id' : Uuid}
    (hrow : .token id row ∈ ws) (hr : s.data.tokens.get id' = some r) :
    r.tokenHash ≠ row.tokenHash :=
  ((h.new id row hrow).2.1.unused id' r hr).2.1

theorem Rotates.inv_data (h : Rotates p ws note s)
    (hinv : RotationInv s.data s.drawn.length s.events) :
    RotationInv (applyAll ws s.data) s.drawn.length s.events where
  drawn id r' hr' := by
    rcases applyAll_cases hr' with ⟨r, hr, hlater, -⟩ | ⟨row, hrow, hlater⟩
    · rw [hlater.hash, hlater.family]
      exact hinv.drawn id r hr
    · obtain ⟨hid, hhash, hfamily⟩ := h.new id row hrow
      rw [hlater.hash, hlater.family]
      refine ⟨hid.lt, hhash.lt, ?_⟩
      rcases hfamily with hmine | ⟨old, r₀, hr₀, -, hfamily₀, -⟩
      · exact hmine.lt
      · rw [← hfamily₀]
        exact (hinv.drawn old r₀ hr₀).2.2
  hashes id id' r r' hr hr' heq := by
    rcases applyAll_cases hr with ⟨r₁, hr₁, hlater, -⟩ | ⟨row, hrow, hlater⟩
    · rcases applyAll_cases hr' with ⟨r₂, hr₂, hlater', -⟩ | ⟨row', hrow', hlater'⟩
      · exact hinv.hashes id id' r₁ r₂ hr₁ hr₂ (by rw [← hlater.hash, heq, hlater'.hash])
      · exact (h.hash_ne hrow' hr₁ (by rw [← hlater.hash, heq, hlater'.hash])).elim
    · rcases applyAll_cases hr' with ⟨r₂, hr₂, hlater', -⟩ | ⟨row', hrow', hlater'⟩
      · exact (h.hash_ne hrow hr₂ (by rw [← hlater'.hash, ← heq, hlater.hash])).elim
      · exact (h.single id row id' row' hrow hrow').1
  live id id' r r' hr hr' hlive hlive' heq := by
    rcases applyAll_cases hr with ⟨r₁, hr₁, hlater, hrevoke⟩ | ⟨row, hrow, hlater⟩
    · rcases applyAll_cases hr' with ⟨r₂, hr₂, hlater', hrevoke'⟩ | ⟨row', hrow', hlater'⟩
      · exact hinv.live id id' r₁ r₂ hr₁ hr₂ (hlater.live hlive) (hlater'.live hlive')
          (by rw [← hlater.family, heq, hlater'.family])
      · exact (h.not_live hinv hrow' hr₁ hlater hrevoke hlive
          (by rw [← hlater.family, heq, hlater'.family])).elim
    · rcases applyAll_cases hr' with ⟨r₂, hr₂, hlater', hrevoke'⟩ | ⟨row', hrow', hlater'⟩
      · exact (h.not_live hinv hrow hr₂ hlater' hrevoke' hlive'
          (by rw [← hlater'.family, ← heq, hlater.family])).elim
      · exact (h.single id row id' row' hrow hrow').1
  exchanged hash hmem := by
    obtain ⟨id, r, hr, hhash, hrevoked⟩ := hinv.exchanged hash hmem
    obtain ⟨r', hr', hlater, -⟩ := later_applyAll ws hr
    exact ⟨id, r', hr', hlater.hash.trans hhash, hlater.revoked hrevoked⟩
  once := hinv.once
  replayed family seen hmem := by
    obtain ⟨⟨id, r, hr, hfamily⟩, hall⟩ := hinv.replayed family seen hmem
    constructor
    · obtain ⟨r', hr', hlater, -⟩ := later_applyAll ws hr
      exact ⟨id, r', hr', hlater.family.trans hfamily⟩
    · intro id' r' hr' hfamily'
      rcases applyAll_cases hr' with ⟨r₁, hr₁, hlater, -⟩ | ⟨row, hrow, hlater⟩
      · exact hlater.revoked (hall id' r₁ hr₁ (hlater.family.symm.trans hfamily'))
      · -- a token is not added to a family all of which is revoked
        rw [hlater.family] at hfamily'
        rcases (h.new id' row hrow).2.2 with hmine | ⟨old, r₀, hr₀, hlive₀, hfamily₀, -⟩
        · exact absurd (hfamily.trans hfamily'.symm) (hmine.unused id r hr).2.2
        · exact absurd hlive₀ (Option.isSome_iff_ne_none.mp (hall old r₀ hr₀ (hfamily₀.trans hfamily')))

/-- **A commit keeps the invariant.** -/
theorem Rotates.inv (h : Rotates p ws note s) (hinv : RotationInv s.data s.drawn.length s.events) :
    RotationInv (applyAll ws s.data) s.drawn.length (note ++ s.events) := by
  have hdata := h.inv_data hinv
  refine ⟨hdata.drawn, hdata.hashes, hdata.live, fun hash hmem => ?_, fun hash => ?_,
    fun family seen hmem => ?_⟩
  · rcases List.mem_append.mp hmem with hmem | hmem
    · obtain ⟨id, r, hr, hhash, -, hrevoke⟩ := h.exchanged hash hmem
      obtain ⟨r', hr', hlater, hrevoked, -⟩ := later_applyAll ws hr
      exact ⟨id, r', hr', hlater.hash.trans hhash, hrevoked hrevoke⟩
    · exact hdata.exchanged hash hmem
  · rw [List.count_append]
    by_cases hmem : .exchanged hash ∈ note
    · -- the token is not revoked, so it has not been exchanged before
      obtain ⟨id, r, hr, hhash, hlive, -⟩ := h.exchanged hash hmem
      have hnot : .exchanged hash ∉ s.events := by
        intro hbefore
        obtain ⟨id', r', hr', hhash', hrevoked⟩ := hinv.exchanged hash hbefore
        obtain rfl := hinv.hashes id id' r r' hr hr' (hhash.trans hhash'.symm)
        rw [hr] at hr'
        cases hr'
        exact Option.isSome_iff_ne_none.mp hrevoked hlive
      rw [List.count_eq_zero_of_not_mem hnot]
      exact List.count_le_length.trans h.announced
    · rw [List.count_eq_zero_of_not_mem hmem, Nat.zero_add]
      exact hdata.once hash
  · rcases List.mem_append.mp hmem with hmem | hmem
    · obtain ⟨hnone, ⟨id, r, hr, hfamily⟩, hall⟩ := h.replayed family seen hmem
      constructor
      · obtain ⟨r', hr', hlater, -⟩ := later_applyAll ws hr
        exact ⟨id, r', hr', hlater.family.trans hfamily⟩
      · intro id' r' hr' hfamily'
        rcases applyAll_cases hr' with ⟨r₁, hr₁, hlater, hrevoke⟩ | ⟨row, hrow, -⟩
        · rcases hall id' r₁ hr₁ (hlater.family.symm.trans hfamily') with hrevoked | hrevoked
          · exact hlater.revoked hrevoked
          · exact hrevoke hrevoked
        · exact absurd hrow (hnone id' row)
    · exact hdata.replayed family seen hmem

/-- **A commit keeps what the others rely on.** -/
theorem Rotates.guar (h : Rotates p ws note s) {q : TxId} (hq : q ≠ p) :
    TokensGrow q s (s.publish p ws note) where
  drawn _ := Iff.rfl
  old id r hr := by
    obtain ⟨r', hr', hlater, -⟩ := later_applyAll ws hr
    exact ⟨r', hr', hlater⟩
  new id r' hr' hnone := by
    have hne : ∀ {n}, Mine p n s → s.drawn[n]? ≠ some q := by
      intro n hmine hother
      rw [hmine.drawn] at hother
      exact hq (Option.some.inj hother).symm
    obtain ⟨row, hrow, hlater⟩ := new_applyAll hr' hnone
    obtain ⟨hid, hhash, hfamily⟩ := h.new id row hrow
    rw [hlater.hash, hlater.family]
    refine ⟨hne hid, hne hhash, ?_⟩
    rcases hfamily with hmine | ⟨old, r₀, hr₀, -, hfamily₀, -⟩
    · exact Or.inl (hne hmine)
    · exact Or.inr ⟨old, r₀, hr₀, hfamily₀⟩

end Publish

/-! ## The routes -/

/-- The write inserts no token. -/
def NoToken : DataWrite → Prop
  | .token _ _ => False
  | _ => True

/-- The token was there when it was read. -/
def Known (id : Uuid) (row : RefreshToken) (d : Data) : Prop :=
  ∃ r, d.tokens.get id = some r ∧ row.Later r

namespace Rotation

variable {p : TxId} {ws : List DataWrite} {note : List Note} {s : Store Data RowKey Note} {α : Type}

theorem rotation_publish (hinv : RotationInv s.data s.drawn.length s.events)
    (h : Rotates p ws note s) : rotationDiscipline.Inv (s.publish p ws note) ∧
      rotationDiscipline.Guar p s (s.publish p ws note) :=
  ⟨h.inv hinv, fun _ hq => h.guar hq⟩

/-! ### Without a new token -/

theorem rotates_of_noToken (hws : ∀ w ∈ ws, NoToken w) : Rotates p ws [] s where
  single _ _ _ _ hrow := (hws _ hrow).elim
  new _ _ hrow := (hws _ hrow).elim
  announced := Nat.zero_le 1
  exchanged _ hmem := absurd hmem List.not_mem_nil
  replayed _ _ hmem := absurd hmem List.not_mem_nil

theorem safe_noToken {β : Type} {m : Handler β} {f : β → Handler α} {C : β → Prop}
    {Q : α → List DataWrite → Store Data RowKey Note → Prop}
    (hm : m.Only NoToken (fun _ => False) C) (hws : ∀ w ∈ ws, NoToken w)
    (hf : ∀ b ws t, (∀ w ∈ ws, NoToken w) → (f b).Safe rotationDiscipline p Q ws t) :
    (m >>= f).Safe rotationDiscipline p Q ws s :=
  (hm.safe_of_all (fun _ _ _ hnote => hnote.elim) hws).bind fun b ws t h => hf b ws t h.2

theorem safe_of_noToken {m : Handler α} (hm : m.Only NoToken (fun note => note = []) fun _ => True) :
    m.Safe rotationDiscipline p anyEnd [] s := by
  refine (hm.safe_of_all ?_ (List.forall_mem_nil _)).mono fun _ _ _ _ => trivial
  rintro ws t note rfl hinv hws -
  exact rotation_publish hinv (rotates_of_noToken hws)

/-! ### A new token -/

theorem stable_mine (p : TxId) (n : ℕ) : Stable rotationDiscipline p fun _ s => Mine p n s where
  rely _ _ _ hst h := h.mono hst
  draw _ s h := by
    refine ⟨?_, h.unused⟩
    rw [Store.draw, List.getElem?_append_left h.lt]
    exact h.drawn
  lock _ s row h := by
    refine ⟨?_, ?_⟩
    · rw [Store.drawn_lock]
      exact h.drawn
    · rw [Store.data_lock]
      exact h.unused

theorem stable_known (p : TxId) (id : Uuid) (row : RefreshToken) :
    Stable rotationDiscipline p fun _ s => Known id row s.data := by
  refine Stable.of_data fun _ s t hst h => ?_
  obtain ⟨r, hr, hlater⟩ := h
  obtain ⟨r', hr', hlater'⟩ := hst.old id r hr
  exact ⟨r', hr', hlater.trans hlater'⟩

variable {K : Store Data RowKey Note → Prop}

/-- **`_issue_tokens`**: the hash of the new token, and its family if it is a new one, are new. -/
theorem safe_issueTokens (settings : AuthSettings) (userId : Uuid) (user : User)
    (familyId : Option Uuid) (hK : Stable rotationDiscipline p fun _ s => K s) (h : K s) :
    (issueTokens settings userId user familyId).Safe rotationDiscipline p
      (fun x ws' t => ws' = ws ∧ K t ∧ Mine p x.2.tokenHash t ∧
        (familyId = none → Mine p x.2.familyId t) ∧ ∀ family ∈ familyId, x.2.familyId = family)
      ws s := by
  refine safe_answer Env.now fun t₁ e₁ h₁ _ => ?_
  refine safe_answer Env.now fun t₂ e₂ h₂ _ => ?_
  refine safe_fresh fun t₃ h₃ hinv₃ => ?_
  have hK₃ : K (t₃.draw p) :=
    hK.draw [] _ (hK.rely [] _ _ h₃ (hK.rely [] _ _ h₂ (hK.rely [] _ _ h₁ h)))
  have hhash : Mine p t₃.drawn.length (t₃.draw p) := mine_draw hinv₃
  cases familyId with
  | some family =>
    refine safe_answer Env.now fun t₄ e₄ h₄ _ => safe_pure ?_
    refine ⟨rfl, hK.rely [] _ _ h₄ hK₃, hhash.mono h₄, fun hnone => ?_, fun _ hfamily => ?_⟩
    · cases hnone
    · exact Option.some.inj hfamily
  | none =>
    refine safe_fresh fun t₄ h₄ hinv₄ => ?_
    refine safe_answer Env.now fun t₅ e₅ h₅ _ => safe_pure ?_
    have hhash₄ : Mine p t₃.drawn.length (t₄.draw p) :=
      (stable_mine p _).draw [] _ (hhash.mono h₄)
    refine ⟨rfl, hK.rely [] _ _ h₅ (hK.draw [] _ (hK.rely [] _ _ h₄ hK₃)), hhash₄.mono h₅,
      fun _ => (mine_draw hinv₄).mono h₅, fun _ hfamily => ?_⟩
    cases hfamily

/-- **The insert** of a token, under a new id. -/
theorem safe_insertToken (hK : Stable rotationDiscipline p fun _ s => K s) (h : K s) :
    (insertToken row).Safe rotationDiscipline p
      (fun _ ws' t => ∃ id, ws' = ws ++ [.token id row] ∧ K t ∧ Mine p id t) ws s := by
  refine safe_fresh fun t₁ h₁ hinv₁ => ?_
  refine safe_insert _ fun t₂ h₂ _ => safe_pure ⟨t₁.drawn.length, rfl, ?_, (mine_draw hinv₁).mono h₂⟩
  exact hK.rely [] _ _ h₂ (hK.draw [] _ (hK.rely [] _ _ h₁ h))

variable {id family : Uuid}

theorem eq_of_token_mem {id' : Uuid} {row' : RefreshToken} (hws : ∀ w ∈ ws, NoToken w)
    (h : .token id' row' ∈ ws ++ [.token id row]) : id' = id ∧ row' = row := by
  rcases List.mem_append.mp h with h | h
  · exact (hws _ h).elim
  · cases List.mem_singleton.mp h
    exact ⟨rfl, rfl⟩

theorem rotates_grant {n : Note} (hws : ∀ w ∈ ws, NoToken w)
    (hid : Mine p id s) (hhash : Mine p row.tokenHash s) (hfamily : Mine p row.familyId s)
    (hexchanged : ∀ h, n ≠ .exchanged h) (hreplayed : ∀ family seen, n ≠ .replayed family seen) :
    Rotates p (ws ++ [.token id row]) [n] s where
  single id₁ row₁ id₂ row₂ h₁ h₂ := by
    obtain ⟨rfl, rfl⟩ := eq_of_token_mem hws h₁
    obtain ⟨rfl, rfl⟩ := eq_of_token_mem hws h₂
    exact ⟨rfl, rfl⟩
  new id' row' h' := by
    obtain ⟨rfl, rfl⟩ := eq_of_token_mem hws h'
    exact ⟨hid, hhash, Or.inl hfamily⟩
  announced := le_refl 1
  exchanged h hmem := absurd (List.mem_singleton.mp hmem).symm (hexchanged h)
  replayed family seen hmem := absurd (List.mem_singleton.mp hmem).symm (hreplayed family seen)

/-- The end of a login and of a confirmation: an entry of the audit log, a token of a new family, and the
commit. -/
theorem safe_grant {β : Type} {c : Crypto} {settings : AuthSettings} {action : String}
    {actor target ip : Option String} {userId : Uuid} {user : User} {n : Note}
    {f : LoginResponse → Handler β} (hws : ∀ w ∈ ws, NoToken w)
    (hexchanged : ∀ h, n ≠ .exchanged h) (hreplayed : ∀ family seen, n ≠ .replayed family seen)
    (hf : ∀ resp t, (f resp).Safe rotationDiscipline p anyEnd [] t) :
    (do
      let _ ← appendAudit c.sha256 action actor target ip
      let (resp, token) ← issueTokens settings userId user none
      insertToken token
      Prog.publish [n]
      f resp : Handler β).Safe rotationDiscipline p anyEnd ws s := by
  refine safe_noToken (only_appendAudit (fun _ => trivial) _ _ _ _ _) hws fun _ ws t hws => ?_
  refine (safe_issueTokens (K := fun _ => True) settings userId user none
    (stable_of_pending _ p fun _ => True) trivial).bind fun x ws' t₁ hx => ?_
  obtain ⟨rfl, -, hhash, hfamily, -⟩ := hx
  refine (safe_insertToken (K := fun t => Mine p x.2.tokenHash t ∧ Mine p x.2.familyId t)
    ((stable_mine p _).and (stable_mine p _)) ⟨hhash, hfamily rfl⟩).bind fun _ ws'' t₂ hid => ?_
  obtain ⟨id, rfl, hK, hid⟩ := hid
  refine safe_publish _ fun u htu hinv _ => ?_
  obtain ⟨hinv', hguar⟩ := rotation_publish hinv (rotates_grant hws (hid.mono htu)
    (hK.1.mono htu) (hK.2.mono htu) hexchanged hreplayed)
  exact ⟨hinv', hguar, hf _ _⟩

/-! ### The exchange -/

theorem rotates_exchange {newId : Uuid} {new : RefreshToken} (hknown : Known id row s.data)
    (hrevoke : ∃ t, .revoke id t ∈ ws)
    (hnew : ∀ id' row', .token id' row' ∈ ws → id' = newId ∧ row' = new) (hid : Mine p newId s)
    (hhash : Mine p new.tokenHash s) (hfamily : new.familyId = row.familyId)
    (hallowed : (Note.exchanged row.tokenHash).UpToDate s.data) :
    Rotates p ws [.exchanged row.tokenHash] s := by
  obtain ⟨r, hr, hlater⟩ := hknown
  have hlive : r.revokedAt = none := by
    refine hallowed (id, r) (Table.mem_rowsWhere.mpr ⟨hr, ?_⟩)
    rw [hlater.hash]
    exact decide_eq_true rfl
  refine ⟨fun id₁ row₁ id₂ row₂ h₁ h₂ => ?_, fun id' row' h' => ?_, le_refl 1, fun h hmem => ?_,
    fun family seen hmem => ?_⟩
  · obtain ⟨rfl, rfl⟩ := hnew id₁ row₁ h₁
    obtain ⟨rfl, rfl⟩ := hnew id₂ row₂ h₂
    exact ⟨rfl, rfl⟩
  · obtain ⟨rfl, rfl⟩ := hnew id' row' h'
    exact ⟨hid, hhash, Or.inr ⟨id, r, hr, hlive, hlater.family.trans hfamily.symm, hrevoke⟩⟩
  · cases List.mem_singleton.mp hmem
    exact ⟨id, r, hr, hlater.hash, hlive, hrevoke⟩
  · cases List.mem_singleton.mp hmem

theorem safe_rotate (settings : AuthSettings) (userId : Uuid)
    (user : User) (hknown : Known id row s.data) :
    (rotate settings id row userId user).Safe rotationDiscipline p anyEnd [] s := by
  refine safe_answer Env.now fun t₀ e₀ h₀ _ => ?_
  refine (safe_issueTokens (K := fun s => Known id row s.data) settings userId user
    (some row.familyId) (stable_known p id row)
    ((stable_known p id row).rely [] _ _ h₀ hknown)).bind fun x ws t₁ hx => ?_
  obtain ⟨rfl, hknown₁, hhash₁, -, hfamily⟩ := hx
  refine safe_update _ _ fun t₂ h₂ _ _ => ?_
  have hstable := (stable_known p id row).and (stable_mine p x.2.tokenHash)
  refine (safe_insertToken hstable
    (hstable.lock [] _ _ (hstable.rely [] _ _ h₂ ⟨hknown₁, hhash₁⟩))).bind fun _ ws t₃ hnew => ?_
  obtain ⟨newId, rfl, hfacts, hid₃⟩ := hnew
  have hstable' := hstable.and (stable_mine p newId)
  refine safe_select _ fun t₄ h₄ _ => ?_
  have hfacts₄ := hstable'.rely [] _ _ h₄ ⟨hfacts, hid₃⟩
  -- the commit, after the replacement has been noted if the new token was found
  have hcommit : ∀ ws t, (∃ t', .revoke id t' ∈ ws) →
      (∀ id' row', .token id' row' ∈ ws → id' = newId ∧ row' = x.2) →
      ((Known id row t.data ∧ Mine p x.2.tokenHash t) ∧ Mine p newId t) →
      (Prog.publish [.exchanged row.tokenHash] >>= fun _ =>
        pure (.ok x.1) : Handler (Except HttpError LoginResponse)).Safe rotationDiscipline p anyEnd
        ws t := by
    intro ws t hrevoke hnew hfacts
    refine safe_publish _ fun u htu hinv hallowed => ?_
    obtain ⟨⟨hknown, hhash⟩, hid⟩ := hstable'.rely [] _ _ htu hfacts
    obtain ⟨hinv', hguar⟩ := rotation_publish hinv (rotates_exchange hknown hrevoke hnew hid hhash
      (hfamily _ rfl) (hallowed _ List.mem_cons_self))
    exact ⟨hinv', hguar, safe_pure trivial⟩
  split
  · exact hcommit _ _ ⟨_, List.mem_cons_self⟩ (fun id' row' h => by simpa using h) hfacts₄
  · refine safe_update _ _ fun t₅ h₅ _ _ => ?_
    exact hcommit _ _ ⟨_, List.mem_cons_self⟩ (fun id' row' h => by simpa using h)
      (hstable'.lock [] _ _ (hstable'.rely [] _ _ h₅ hfacts₄))

/-! ### The revocation of a family -/

/-- How far the revocation of a family has come: of the tokens it has seen, those not yet looked at are
`todo`, and the others are revoked. -/
structure Revoking (family : Uuid) (seen todo : List Uuid) (ws : List DataWrite) (d : Data) : Prop where
  noToken : ∀ w ∈ ws, NoToken w
  tokens : ∀ id ∈ seen, ∃ r, d.tokens.get id = some r ∧ (r.familyId = family →
    r.revokedAt.isSome = true ∨ (∃ t, .revoke id t ∈ ws) ∨ id ∈ todo)

theorem stable_revoking (p : TxId) (family : Uuid) (seen todo : List Uuid) :
    Stable rotationDiscipline p fun ws s => Revoking family seen todo ws s.data := by
  refine Stable.of_data fun ws s t hst h => ⟨h.noToken, fun id hid => ?_⟩
  obtain ⟨r, hr, hrevoked⟩ := h.tokens id hid
  obtain ⟨r', hr', hlater⟩ := hst.old id r hr
  refine ⟨r', hr', fun hfamily => ?_⟩
  rcases hrevoked (hlater.family.symm.trans hfamily) with hrevoked | hrevoked
  · exact Or.inl (hlater.revoked hrevoked)
  · exact Or.inr hrevoked

variable {seen todo : List Uuid}

theorem Revoking.snoc {d : Data} {w : DataWrite}
    (h : Revoking family seen todo ws d) (hw : NoToken w) :
    Revoking family seen todo (ws ++ [w]) d where
  noToken := List.forall_mem_append.mpr ⟨h.noToken, List.forall_mem_singleton.mpr hw⟩
  tokens id hid := by
    obtain ⟨r, hr, hrevoked⟩ := h.tokens id hid
    refine ⟨r, hr, fun hfamily => ?_⟩
    rcases hrevoked hfamily with hrevoked | ⟨t, ht⟩ | htodo
    · exact Or.inl hrevoked
    · exact Or.inr (Or.inl ⟨t, List.mem_append_left _ ht⟩)
    · exact Or.inr (Or.inr htodo)

/-- **One token** of the family: it is revoked, unless it is already. -/
theorem Revoking.step {d : Data} {now : Time} (h : Revoking family seen (id :: todo) ws d) :
    Revoking family seen todo (ws ++ if ((applyAll ws d).tokens.get id).any fun r =>
        decide (r.familyId = family) && r.revokedAt.isNone then [.revoke id now] else []) d := by
  split
  · have hsnoc := h.snoc (w := .revoke id now) trivial
    refine ⟨hsnoc.noToken, fun id' hid' => ?_⟩
    obtain ⟨r, hr, hrevoked⟩ := hsnoc.tokens id' hid'
    refine ⟨r, hr, fun hfamily => ?_⟩
    rcases hrevoked hfamily with hrevoked | hrevoked | htodo
    · exact Or.inl hrevoked
    · exact Or.inr (Or.inl hrevoked)
    · rcases List.mem_cons.mp htodo with rfl | htodo
      · exact Or.inr (Or.inl ⟨now, List.mem_append_right _ List.mem_cons_self⟩)
      · exact Or.inr (Or.inr htodo)
  · rename_i hskip
    rw [List.append_nil]
    refine ⟨h.noToken, fun id' hid' => ?_⟩
    obtain ⟨r, hr, hrevoked⟩ := h.tokens id' hid'
    refine ⟨r, hr, fun hfamily => ?_⟩
    rcases hrevoked hfamily with hrevoked | hrevoked | htodo
    · exact Or.inl hrevoked
    · exact Or.inr (Or.inl hrevoked)
    · rcases List.mem_cons.mp htodo with rfl | htodo
      · -- the statement has looked at the token and found it revoked
        obtain ⟨r', hr', hlater, -, hcause⟩ := later_applyAll ws hr
        have hsome : r'.revokedAt.isSome = true := by
          cases hnone : r'.revokedAt with
          | some t => rfl
          | none =>
            refine absurd ?_ hskip
            rw [hr', Option.any_some, hlater.family, hfamily, hnone]
            simp
        rcases hcause hsome with hrevoked | hrevoked
        · exact Or.inl hrevoked
        · exact Or.inr (Or.inl hrevoked)
      · exact Or.inr (Or.inr htodo)

/-- **The statement** goes through its rows. -/
theorem safe_revokeEach (now : Time) (todo : List Uuid)
    (hK : Stable rotationDiscipline p fun _ s => K s) (hk : K s)
    (h : Revoking family seen todo ws s.data) :
    (revokeEach (fun r => decide (r.familyId = family)) now todo).Safe rotationDiscipline p
      (fun _ ws t => Revoking family seen [] ws t.data ∧ K t) ws s := by
  induction todo generalizing ws s with
  | nil => exact safe_pure ⟨h, hk⟩
  | cons id todo ih =>
    refine safe_update _ _ fun t hst _ _ => ih (hK.lock [] _ _ (hK.rely [] _ _ hst hk)) ?_
    have hrevoking := (stable_revoking p family seen (id :: todo)).rely _ _ _ hst h
    rw [Store.data_lock]
    exact hrevoking.step

/-- **`_revoke_refresh_family`** has revoked all tokens that it returns. -/
theorem safe_revokeRefreshFamily (family : Uuid) (hK : Stable rotationDiscipline p fun _ s => K s)
    (hk : K s) : (revokeRefreshFamily family).Safe rotationDiscipline p
      (fun seen ws t => Revoking family seen [] ws t.data ∧ K t) [] s := by
  refine safe_answer Env.now fun t₁ e₁ h₁ _ => ?_
  refine safe_select _ fun t₂ h₂ _ => ?_
  refine (safe_revokeEach _ _ hK (hK.rely [] _ _ h₂ (hK.rely [] _ _ h₁ hk))
    ⟨fun _ h => absurd h List.not_mem_nil, fun id hid => ?_⟩).bind fun _ ws t h => safe_pure h
  obtain ⟨x, hx, rfl⟩ := List.mem_map.mp hid
  obtain ⟨hr, -⟩ := Table.mem_rowsWhere.mp (show (x.1, x.2) ∈ _ from hx)
  refine ⟨x.2, hr, fun hfamily => ?_⟩
  cases hrevoked : x.2.revokedAt with
  | some t => exact Or.inl rfl
  | none =>
    refine Or.inr (Or.inr (List.mem_map.mpr ⟨x, Table.mem_rowsWhere.mpr ⟨hr, ?_⟩, rfl⟩))
    rw [hfamily, hrevoked]
    simp

theorem rotates_replay (h : Revoking family seen [] ws s.data) (hknown : Known id row s.data)
    (hfamily : row.familyId = family) (hallowed : (Note.replayed family seen).UpToDate s.data) :
    Rotates p ws [.replayed family seen] s where
  single _ _ _ _ hrow := (h.noToken _ hrow).elim
  new _ _ hrow := (h.noToken _ hrow).elim
  announced := le_refl 1
  exchanged _ hmem := by cases List.mem_singleton.mp hmem
  replayed family' seen' hmem := by
    cases List.mem_singleton.mp hmem
    obtain ⟨r, hr, hlater⟩ := hknown
    refine ⟨fun _ _ hrow => h.noToken _ hrow, ⟨id, r, hr, hlater.family.trans hfamily⟩,
      fun id' r' hr' hfamily' => ?_⟩
    cases hlive : r'.revokedAt with
    | some t => exact Or.inl rfl
    | none =>
      have hseen : id' ∈ seen := by
        refine hallowed (id', r') (Table.mem_rowsWhere.mpr ⟨hr', ?_⟩)
        rw [hfamily', hlive]
        simp
      obtain ⟨r₁, hr₁, hrevoked⟩ := h.tokens id' hseen
      rw [hr'] at hr₁
      cases hr₁
      rcases hrevoked hfamily' with hrevoked | hrevoked | hnil
      · exact absurd hlive (Option.isSome_iff_ne_none.mp hrevoked)
      · exact Or.inr hrevoked
      · exact absurd hnil List.not_mem_nil

theorem safe_refuseReplay (c : Crypto) (hknown : Known id row s.data) :
    (refuseReplay c row).Safe rotationDiscipline p anyEnd [] s := by
  have hK := stable_known p id row
  refine (safe_revokeRefreshFamily (K := fun s => Known id row s.data) row.familyId hK
    hknown).bind fun seen ws t h => ?_
  refine ((stable_revoking p row.familyId seen []).and hK).bind (A := NoToken)
    (fun _ _ _ hw h => ⟨h.1.snoc hw, h.2⟩) (only_appendAudit (fun _ => trivial) _ _ _ _ _) h
    fun _ ws t _ h => ?_
  refine safe_publish _ fun u htu hinv hallowed => ?_
  obtain ⟨hrevoking, hknown⟩ := ((stable_revoking p row.familyId seen []).and hK).rely _ _ _ htu h
  obtain ⟨hinv', hguar⟩ := rotation_publish hinv
    (rotates_replay (p := p) hrevoking hknown rfl (hallowed _ List.mem_cons_self))
  exact ⟨hinv', hguar, safe_pure trivial⟩

theorem safe_refresh (c : Crypto) (settings : AuthSettings) (token : PresentedToken) :
    (refresh c settings token).Safe rotationDiscipline p anyEnd [] s := by
  unfold refresh
  split
  · exact safe_pure trivial
  · rename_i userId _
    refine safe_select _ fun t₁ _ _ => ?_
    split
    · exact safe_pure trivial
    · rename_i id row hfound
      have hknown : Known id row t₁.data :=
        ⟨row, (Table.mem_rowsWhere.mp (List.mem_of_head? hfound)).1, RefreshToken.Later.refl row⟩
      have hK := stable_known p id row
      refine safe_answer Env.now fun t₂ e₂ h₂ _ => ?_
      split_ifs
      · exact safe_pure trivial
      · exact safe_refuseReplay c (hK.rely [] _ _ h₂ hknown)
      · refine safe_select _ fun t₃ h₃ _ => ?_
        split
        · exact safe_pure trivial
        · split_ifs
          · exact safe_rotate settings userId _ (hK.rely [] _ _ h₃ (hK.rely [] _ _ h₂ hknown))
          · exact safe_pure trivial

/-! ### The other routes -/

theorem safe_completeLogin (c : Crypto) (settings : AuthSettings) (id : Uuid) (user : User)
    (factor : Option Factor) (ip : Option String) :
    (completeLogin c settings id user factor ip).Safe rotationDiscipline p anyEnd [] s := by
  refine safe_answer Env.now fun t₁ e₁ h₁ _ => ?_
  refine safe_noToken (only_flushUser trivial) (fun _ h => absurd h List.not_mem_nil)
    fun found ws t hws => ?_
  cases found with
  | false => exact safe_pure trivial
  | true =>
    exact safe_grant (f := fun resp => pure (Except.ok resp)) hws (fun _ h => by cases h)
      (fun _ _ h => by cases h) fun _ _ => safe_pure trivial

theorem safe_login (c : Crypto) (settings : AuthSettings) (body : LoginRequest) :
    (login c settings body).Safe rotationDiscipline p anyEnd [] s := by
  have hrefuse : ∀ action actor detail t,
      (refuseLogin c action actor body.ip detail).Safe rotationDiscipline p anyEnd [] t :=
    fun action actor detail _ =>
      safe_of_noToken (only_refuseLogin (fun _ => trivial) rfl c action actor body.ip detail)
  refine safe_select _ fun t₀ _ _ => ?_
  refine safe_answer _ fun t₁ e h₁ _ => ?_
  split
  · exact hrefuse _ _ _ _
  · split_ifs
    · exact hrefuse _ _ _ _
    · exact hrefuse _ _ _ _
    · refine safe_answer Env.now fun t₂ e₂ h₂ _ => ?_
      split
      · exact safe_pure trivial
      · exact hrefuse _ _ _ _
      · exact safe_completeLogin c settings _ _ _ _
    · exact safe_pure trivial
    · exact safe_completeLogin c settings _ _ _ _

theorem safe_totpConfirm (c : Crypto) (settings : AuthSettings) (credentials : Credentials)
    (code : String) :
    (totpConfirm c settings credentials code).Safe rotationDiscipline p anyEnd [] s := by
  refine safe_noToken (only_getCurrentUser credentials) (fun _ h => absurd h List.not_mem_nil)
    fun r ws t hws => ?_
  cases r with
  | error e => exact safe_pure trivial
  | ok x =>
    dsimp only
    split
    · split
      · exact safe_pure trivial
      · refine safe_answer Env.now ?_
        intro t₁ e₁ h₁ _
        split
        · exact safe_pure trivial
        · exact safe_pure trivial
        · refine safe_noToken (only_flushUser trivial) hws fun found ws t hws => ?_
          cases found with
          | false => exact safe_pure trivial
          | true =>
            exact safe_grant (f := fun resp => pure (Except.ok resp)) hws (fun _ h => by cases h)
              (fun _ _ h => by cases h) fun _ _ => safe_pure trivial
    · exact safe_pure trivial

theorem safe_authRoute (c : Crypto) (settings : AuthSettings) (request : AuthRequest) :
    (authRoute c settings request).Safe rotationDiscipline p anyEnd [] s := by
  cases request with
  | login body => exact (safe_login c settings body).bind fun _ _ _ _ => trivial
  | refresh token => exact (safe_refresh c settings token).bind fun _ _ _ _ => trivial
  | totpConfirm credentials code =>
    exact (safe_totpConfirm c settings credentials code).bind fun _ _ _ _ => trivial
  | logout credentials tokenHash =>
    refine Prog.Safe.bind (safe_of_noToken ?_) fun _ _ _ _ => trivial
    exact only_logout (B := fun note => note = []) (fun _ => trivial) (fun _ _ => trivial) rfl c
      credentials tokenHash
  | changePassword credentials current new =>
    refine Prog.Safe.bind (safe_of_noToken ?_) fun _ _ _ _ => trivial
    exact only_changePassword (B := fun note => note = []) (fun _ => trivial) (fun _ _ => trivial)
      (fun _ _ _ => trivial) rfl c credentials current new

end Rotation

/-! ## Runs -/

/-- **Tokens are single-use**: each has been exchanged once at most, a family has one token that is not
revoked at most, and none after a replay. -/
structure RotatesOnce (s : Store Data RowKey Note) : Prop where
  exchanged : ∀ h, s.events.count (.exchanged h) ≤ 1
  live : ∀ id id' r r', s.data.tokens.get id = some r → s.data.tokens.get id' = some r' →
    r.revokedAt = none → r'.revokedAt = none → r.familyId = r'.familyId → id = id'
  replayed : ∀ family seen, .replayed family seen ∈ s.events →
    ∀ id r, s.data.tokens.get id = some r → r.familyId = family → r.revokedAt ≠ none

/-- **Tokens are single-use** in every run whose commits meet the condition. -/
theorem rotatesOnce_of_runs (c : Crypto) (settings : AuthSettings) {s : Store Data RowKey Note}
    (hs : RotationInv s.data s.drawn.length s.events) {g : Engine Data RowKey DataWrite Env Note}
    (hrun : Runs (authStep c settings) (CommitsOnly TokensUpToDate) (Engine.start s) g) :
    RotatesOnce g.store := by
  have hinv : RotationInv g.store.data g.store.drawn.length g.store.events :=
    invariant_of_runs (R := rotationDiscipline)
      (fun _ request _ _ => Rotation.safe_authRoute c settings request) (allSafe_start hs)
      (permits_of_commits (fun _ _ _ => trivial) hrun)
  refine ⟨hinv.once, hinv.live, fun family seen hmem id r hr hfamily => ?_⟩
  exact Option.isSome_iff_ne_none.mp ((hinv.replayed family seen hmem).2 id r hr hfamily)

theorem rotationInv_oneUser : RotationInv oneUser.data oneUser.drawn.length oneUser.events where
  drawn _ _ h := by cases h
  hashes _ _ _ _ h := by cases h
  live _ _ _ _ h := by cases h
  exchanged _ h := absurd h List.not_mem_nil
  once _ := Nat.zero_le 1
  replayed _ _ h := absurd h List.not_mem_nil

/-- The exchange of the token with a hash. -/
def exampleRefresh (hash : ℕ) : AuthRequest := .refresh ⟨hash, some 0⟩

/-- **A token is exchanged twice**: the second request has read it before the first one commits. -/
theorem exchanged_twice : ¬ ∀ (c : Crypto) (settings : AuthSettings) (s : Store Data RowKey Note),
    RotationInv s.data s.drawn.length s.events →
      ∀ g, Runs (authStep c settings) anyAction (Engine.start s) g → RotatesOnce g.store := by
  intro h
  obtain ⟨g, hrun, hg⟩ := exists_runs_of_exec (G := anyAction)
    (authStep exampleCrypto exampleSettings) (Engine.start oneUser)
    ([.begin 0 (exampleLoginWith "10")] ++ statements 0 18 ++
      [.begin 0 (exampleRefresh 1), .begin 1 (exampleRefresh 1)] ++ statements 1 4 ++
      statements 0 15 ++ statements 1 11)
    (p := fun g => decide (g.store.events.count (.exchanged 1) = 2)) (by decide +kernel)
  have honce := (h exampleCrypto exampleSettings oneUser rotationInv_oneUser g hrun).exchanged 1
  rw [of_decide_eq_true hg] at honce
  exact absurd honce (by decide)

theorem rotatesOnce_of_replay : ∃ g, Runs (authStep exampleCrypto exampleSettings)
      (CommitsOnly TokensUpToDate) (Engine.start oneUser) g ∧
    g.store.events.length = 3 ∧ RotatesOnce g.store := by
  obtain ⟨g, hrun, hg⟩ := exists_runs_of_exec (G := CommitsOnly TokensUpToDate)
    (authStep exampleCrypto exampleSettings) (Engine.start oneUser)
    ([.begin 0 (exampleLoginWith "10")] ++ statements 0 18 ++ [.begin 0 (exampleRefresh 1)] ++
      statements 0 15 ++ [.begin 0 (exampleRefresh 1)] ++ statements 0 10)
    (p := fun g => decide (g.store.events.length = 3)) (by decide +kernel)
  exact ⟨g, hrun, of_decide_eq_true hg,
    rotatesOnce_of_runs exampleCrypto exampleSettings rotationInv_oneUser hrun⟩

end AssetInventory.Server
