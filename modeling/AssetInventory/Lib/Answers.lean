import AssetInventory.Lib.ReadCommitted

/-!
# Requests that are answered

A program of `ReadCommitted` returns an answer, and the engine forgets it.  Here the answer is put on record
once the session is closed, so that a statement about runs can speak of it.

* `Prog.bind_assoc`, `Prog.bind_pure`: one part after the other, as usual.
* `Entry`: what is on record, the announcements of the commits and the answers.
* `Prog.mapNote`: a program that announces under other names.
* `Prog.answering`: the program of a request whose answer is put on record.
* `Prog.Only.mapNote`, `safe_answering`: how to reason about it.
-/

namespace ReadCommitted

variable {D K W E V V' A α β : Type}

theorem Prog.bind_assoc {γ : Type} (m : Prog D K W E V α) (f : α → Prog D K W E V β)
    (g : β → Prog D K W E V γ) : m >>= f >>= g = m >>= fun a => f a >>= g := by
  change (m.bind f).bind g = m.bind fun a => (f a).bind g
  induction m with
  | ret a => rfl
  | read next ih => exact congrArg Prog.read (funext ih)
  | ask next ih => exact congrArg Prog.ask (funext ih)
  | draw next ih => exact congrArg Prog.draw (funext ih)
  | write row writes next ih => exact congrArg (Prog.write row writes) (funext ih)
  | commit note next ih => exact congrArg (Prog.commit note) ih
  | rollback next ih => exact congrArg Prog.rollback ih
  | unlock row next ih => exact congrArg (Prog.unlock row) ih

theorem Prog.bind_pure (m : Prog D K W E V α) : m >>= pure = m := by
  change m.bind Prog.ret = m
  induction m with
  | ret a => rfl
  | read next ih => exact congrArg Prog.read (funext ih)
  | ask next ih => exact congrArg Prog.ask (funext ih)
  | draw next ih => exact congrArg Prog.draw (funext ih)
  | write row writes next ih => exact congrArg (Prog.write row writes) (funext ih)
  | commit note next ih => exact congrArg (Prog.commit note) ih
  | rollback next ih => exact congrArg Prog.rollback ih
  | unlock row next ih => exact congrArg (Prog.unlock row) ih

/-- An entry of the record. -/
inductive Entry (V A : Type) where
  /-- A commit has announced it. -/
  | note (v : V)
  /-- A request has been answered so, after the end of its session. -/
  | answer (a : A)
  deriving DecidableEq

/-- A program whose commits announce under other names. -/
def Prog.mapNote (f : V → V') : Prog D K W E V α → Prog D K W E V' α
  | .ret a => .ret a
  | .read next => .read fun d => (next d).mapNote f
  | .ask next => .ask fun e => (next e).mapNote f
  | .draw next => .draw fun n => (next n).mapNote f
  | .write row writes next => .write row writes fun d => (next d).mapNote f
  | .commit note next => .commit (note.map f) (next.mapNote f)
  | .rollback next => .rollback (next.mapNote f)
  | .unlock row next => .unlock row (next.mapNote f)

/-- **The program of a request whose answer is put on record**, after the end of the session. -/
def Prog.answering (m : Prog D K W E V A) : Prog D K W E (Entry V A) Unit :=
  (m.mapNote Entry.note).bind fun a => .rollback (.commit [.answer a] (.ret ()))

section MapNote

variable (f : V → V')

theorem Prog.mapNote_bind (m : Prog D K W E V α) (k : α → Prog D K W E V β) :
    (m >>= k).mapNote f = m.mapNote f >>= fun a => (k a).mapNote f := by
  change (m.bind k).mapNote f = (m.mapNote f).bind fun a => (k a).mapNote f
  induction m with
  | ret a => rfl
  | read next ih => exact congrArg Prog.read (funext ih)
  | ask next ih => exact congrArg Prog.ask (funext ih)
  | draw next ih => exact congrArg Prog.draw (funext ih)
  | write row writes next ih => exact congrArg (Prog.write row writes) (funext ih)
  | commit note next ih => exact congrArg (Prog.commit (note.map f)) ih
  | rollback next ih => exact congrArg Prog.rollback ih
  | unlock row next ih => exact congrArg (Prog.unlock row) ih

theorem Prog.Only.mapNote {P : W → Prop} {B : List V → Prop} {C : α → Prop}
    {m : Prog D K W E V α} (h : m.Only P B C) :
    (m.mapNote f).Only P (fun vs => ∃ ns, B ns ∧ vs = ns.map f) C := by
  induction m with
  | ret a => exact h
  | read next ih => exact fun d => ih d (h d)
  | ask next ih => exact fun e => ih e (h e)
  | draw next ih => exact fun n => ih n (h n)
  | write row writes next ih => exact fun d => ⟨(h d).1, ih d (h d).2⟩
  | commit note next ih => exact ⟨⟨note, h.1, rfl⟩, ih h.2⟩
  | rollback next => exact h.elim
  | unlock row next => exact h.elim

theorem Prog.Only.mapNote_silent {P : W → Prop} {C : α → Prop} {m : Prog D K W E V α}
    (h : m.Only P (fun _ => False) C) : (m.mapNote f).Only P (fun _ => False) C :=
  (h.mapNote f).mono (fun _ h => h) (fun _ ⟨_, hnote, _⟩ => hnote) fun _ h => h

end MapNote

variable [Applies W D] [DecidableEq K]

/-- **A safe request is safe with its answer on record**, if the record may take the answer. -/
theorem safe_answering {R : Discipline D K W (Entry V A)} {p : TxId} {m : Prog D K W E V A}
    {Q : A → List W → Store D K (Entry V A) → Prop} {pending : List W}
    {s : Store D K (Entry V A)} (h : (m.mapNote Entry.note).Safe R p Q pending s)
    (hanswer : ∀ a ws t u, Q a ws t → R.Rely p t u → R.Inv u → ∀ v, R.Rely p (u.release p) v →
      R.Inv v → R.Allowed v [] [.answer a] → R.Inv (v.publish p ([] : List W) [.answer a]) ∧
        R.Guar p v (v.publish p ([] : List W) [.answer a])) :
    m.answering.Safe R p anyEnd pending s := by
  refine (Prog.safe_bind _ _ _ _ _).mpr (h.mono ?_)
  intro a ws t ht u htu hu v huv hv hallowed
  obtain ⟨hinv, hguar⟩ := hanswer a ws t u ht htu hu v huv hv hallowed
  exact ⟨hinv, hguar, trivial⟩

end ReadCommitted
