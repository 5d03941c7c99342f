import AssetInventory.Lib.ReadCommitted

/-!
# One transaction among others

A transaction has a share in the data: what it does, and what the others leave to it.  It is followed from
its beginning to its end, whatever the others do outside its share.  What it may be told is restricted, too.

* `Share`: a share, with its discipline `Share.discipline`.
* `Prog.told`: the program, with answers from a smaller type.
* `Share.step`: a statement of the transaction keeps to its share, and what it is to end with.
* `Share.others`: a statement of another one does not matter.
-/

namespace ReadCommitted

variable {D K W E E' V α β : Type}

/-! ## The answers of a smaller type -/

/-- The program, when it is told only what `f` gives. -/
def Prog.told (f : E' → E) : Prog D K W E V α → Prog D K W E' V α
  | .ret a => .ret a
  | .read next => .read fun d => (next d).told f
  | .ask next => .ask fun e => (next (f e)).told f
  | .draw next => .draw fun n => (next n).told f
  | .write row writes next => .write row writes fun d => (next d).told f
  | .commit note next => .commit note (next.told f)
  | .rollback next => .rollback (next.told f)
  | .unlock row next => .unlock row (next.told f)

theorem Prog.told_bind (f : E' → E) (m : Prog D K W E V α) (k : α → Prog D K W E V β) :
    (m >>= k).told f = m.told f >>= fun a => (k a).told f := by
  change (m.bind k).told f = (m.told f).bind fun a => (k a).told f
  induction m with
  | ret a => rfl
  | read next ih => exact congrArg Prog.read (funext ih)
  | ask next ih => exact congrArg Prog.ask (funext fun e => ih (f e))
  | draw next ih => exact congrArg Prog.draw (funext ih)
  | write row writes next ih => exact congrArg (Prog.write row writes) (funext ih)
  | commit note next ih => exact congrArg (Prog.commit note) ih
  | rollback next ih => exact congrArg Prog.rollback ih
  | unlock row next ih => exact congrArg (Prog.unlock row) ih

theorem Prog.Only.told {A : W → Prop} {B : List V → Prop} {C : α → Prop} {m : Prog D K W E V α}
    (h : m.Only A B C) (f : E' → E) : (m.told f).Only A B C := by
  induction m with
  | ret a => exact h
  | read next ih => exact fun d => ih d (h d)
  | ask next ih => exact fun e => ih (f e) (h (f e))
  | draw next ih => exact fun n => ih n (h n)
  | write row writes next ih => exact fun d => ⟨(h d).1, ih d (h d).2⟩
  | commit note next ih => exact ⟨h.1, ih h.2⟩
  | rollback next => exact h.elim
  | unlock row next => exact h.elim

variable [Applies W D] [DecidableEq K]

/-- A statement that is told what `f` gives is one of the program that is told only that. -/
theorem Txn.step_told (f : E' → E) {p : TxId} {e : E'} {s s' : Store D K V} {pending : List W}
    {prog : Prog D K W E V Unit} {x : Txn D K W E V}
    (h : Txn.step p (f e) s ⟨pending, prog⟩ = some (s', x)) :
    Txn.step p e s ⟨pending, prog.told f⟩ = some (s', ⟨x.pending, x.prog.told f⟩) := by
  cases prog with
  | ret a => cases h
  | write row writes next =>
    rw [Txn.step] at h
    split at h
    · rename_i hfree
      obtain ⟨rfl, rfl⟩ := Prod.mk.inj (Option.some.inj h)
      exact if_pos hfree
    · cases h
  | _ =>
    obtain ⟨rfl, rfl⟩ := Prod.mk.inj (Option.some.inj h)
    rfl

omit [Applies W D] [DecidableEq K] in
theorem write?_told (f : E' → E) (d : D) (prog : Prog D K W E V α) :
    (prog.told f).write? d = prog.write? d := by
  cases prog <;> rfl

/-! ## Shares -/

/-- What a transaction does to the data, and what the others do. -/
structure Share (D : Type) where
  Inv : D → Prop
  Ours : D → D → Prop
  Theirs : D → D → Prop
  ours_refl : ∀ d, Ours d d
  theirs_refl : ∀ d, Theirs d d
  theirs_trans : ∀ c d e, Theirs c d → Theirs d e → Theirs c e

variable {S : Share D} {o : TxId} {Opens : Store D K V → Option K → List W → Prop}
  {Q : Unit → List W → Store D K V → Prop} {pending : List W} {prog : Prog D K W E' V Unit}
  {s t : Store D K V}

/-- The discipline of a transaction with this share. -/
def Share.discipline (S : Share D) (o : TxId) (Opens : Store D K V → Option K → List W → Prop) :
    Discipline D K W V where
  Inv s := S.Inv s.data
  Rely q s t := q = o → S.Theirs s.data t.data
  Guar q s t := (q = o → S.Ours s.data t.data) ∧ (q ≠ o → S.Theirs s.data t.data)
  Allowed _ _ _ := True
  Opens := Opens
  rely_refl _ s _ := S.theirs_refl s.data
  rely_trans _ _ _ _ hst htu ho := S.theirs_trans _ _ _ (hst ho) (htu ho)
  rely_of_guar _ _ _ _ hne h ho := h.2 fun hp => hne (ho.trans hp.symm)
  guar_refl _ s := ⟨fun _ => S.ours_refl s.data, fun _ => S.theirs_refl s.data⟩
  lock_ok _ s row hinv _ := by
    rw [Store.data_lock]
    exact ⟨hinv, fun _ => S.ours_refl s.data, fun _ => S.theirs_refl s.data⟩
  release_ok _ s hinv := ⟨hinv, fun _ => S.ours_refl s.data, fun _ => S.theirs_refl s.data⟩
  unlock_ok _ s _ hinv := ⟨hinv, fun _ => S.ours_refl s.data, fun _ => S.theirs_refl s.data⟩
  draw_ok _ s hinv := ⟨hinv, fun _ => S.ours_refl s.data, fun _ => S.theirs_refl s.data⟩

/-- **A statement of the transaction.** -/
theorem Share.step (f : E' → E) {e : E'} {x x' : Txn D K W E V} (hinv : S.Inv s.data)
    (hsafe : (x.prog.told f).Safe (S.discipline o Opens) o Q x.pending s)
    (hopen : ∀ y ∈ x.prog.write? (s.view x.pending), Opens s y.1 y.2)
    (h : x.step o (f e) s = some (t, x')) : S.Inv t.data ∧ S.Ours s.data t.data ∧
      (x'.prog.told f).Safe (S.discipline o Opens) o Q x'.pending t := by
  obtain ⟨hinv', hguar, hsafe'⟩ := Txn.safe_step (R := S.discipline o Opens)
    (x := ⟨x.pending, x.prog.told f⟩) hinv hsafe (fun _ _ _ => trivial)
    (by rw [write?_told]; exact hopen) (Txn.step_told f h)
  exact ⟨hinv', hguar.1 rfl, hsafe'⟩

/-- **A statement of another one.** -/
theorem Share.others (hsafe : prog.Safe (S.discipline o Opens) o Q pending s)
    (hQ : ∀ a ws s t, S.Theirs s.data t.data → Q a ws s → Q a ws t) (h : S.Theirs s.data t.data) :
    prog.Safe (S.discipline o Opens) o Q pending t :=
  hsafe.rely (fun a ws s t hst => hQ a ws s t (hst rfl)) fun _ => h

end ReadCommitted
