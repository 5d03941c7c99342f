import AssetInventory.Lib.ReadCommitted

/-!
# Commits that keep a property

A write may keep a property of the data whatever else has been committed since its transaction began.
Where all writes do, a transaction need not rely on the others.

* `Preserves`: a write keeps a property.
* `keeping`: the discipline of transactions whose commits keep a property.
* `Prog.Only.keeping`, `Prog.Only.refused`: programs whose writes keep it, and programs whose commits are not
  allowed.
* `kept_of_runs`: the property holds in every run.
-/

namespace ReadCommitted

open Interleaving

variable {D K W E V Req α β : Type} [Applies W D]

/-- The write keeps the property. -/
def Preserves (I : D → Prop) (w : W) : Prop := ∀ d, I d → I (Applies.apply w d)

variable {I : D → Prop} {s : Store D K V} {ws pending : List W}

theorem view_of_preserves (hs : I s.data) (hws : ∀ w ∈ ws, Preserves I w) : I (s.view ws) :=
  applyAll_invariant hws hs

variable [DecidableEq K]

/-- **The discipline**: what has been committed has the property. -/
def keeping (I : D → Prop) (Allowed : Store D K V → List W → List V → Prop) : Discipline D K W V where
  Inv s := I s.data
  Rely _ _ _ := True
  Guar _ _ _ := True
  Allowed := Allowed
  rely_refl _ _ := trivial
  rely_trans _ _ _ _ _ _ := trivial
  rely_of_guar _ _ _ _ _ _ := trivial
  guar_refl _ _ := trivial
  lock_ok p s row hinv _ := by
    refine ⟨?_, trivial⟩
    rw [Store.data_lock]
    exact hinv
  release_ok _ _ hinv := ⟨hinv, trivial⟩
  unlock_ok _ _ _ hinv := ⟨hinv, trivial⟩
  draw_ok _ _ hinv := ⟨hinv, trivial⟩

variable {Allowed : Store D K V → List W → List V → Prop} {p : TxId} {note : List V}

/-- **A commit** of writes that keep the property. -/
theorem keeping_publish (hs : I s.data) (hws : ∀ w ∈ ws, Preserves I w) :
    (keeping I Allowed).Inv (s.publish p ws note) ∧
      (keeping I Allowed).Guar p s (s.publish p ws note) :=
  ⟨view_of_preserves hs hws, trivial⟩

section Programs

variable {A : W → Prop} {B : List V → Prop} {C : α → Prop} {m : Prog D K W E V α}

/-- **Programs whose writes keep the property.** -/
theorem Prog.Only.keeping (hm : m.Only (Preserves I) B C) (h : ∀ w ∈ pending, Preserves I w) :
    m.Safe (keeping I Allowed) p (fun a ws _ => C a ∧ ∀ w ∈ ws, Preserves I w) pending s :=
  hm.safe_of_all (fun _ _ _ _ hinv hws _ => keeping_publish hinv hws) h

/-- **Programs whose commits are not allowed.** -/
theorem Prog.Only.refused (hm : m.Only A (fun note => ∀ s ws, ¬ Allowed s ws note) C) :
    m.Safe (ReadCommitted.keeping I Allowed) p anyEnd pending s := by
  refine (hm.safe (stable_of_pending _ p fun _ => True) (fun _ _ _ _ _ => trivial) ?_
    trivial).mono fun _ _ _ _ => trivial
  intro ws t note hnote _ _ hallowed
  exact absurd hallowed (hnote t ws)

end Programs

/-- **The property** in a run whose commits are allowed. -/
theorem kept_of_runs {handler : Req → Prog D K W E V Unit} {g : Engine D K W E V}
    (hhandler : ∀ p request s, I s.data → (handler request).Safe (keeping I Allowed) p anyEnd [] s)
    (hs : I s.data)
    (hrun : Runs (Engine.step handler) (CommitsOnly Allowed) (Engine.start s) g) : I g.store.data :=
  invariant_of_runs (R := keeping I Allowed) hhandler (allSafe_start hs)
    (permits_of_commits (fun _ _ _ => trivial) hrun)

end ReadCommitted
