import AssetInventory.Lib.ReadCommitted

/-!
# Programs that announce something else

What a commit announces does not change what a program does.  Here a program gets other announcements, such
as those that a statement about its requests needs, and the rules of `ReadCommitted` are carried over to it.

* `Prog.noting`: the program with other announcements; `Prog.Only.noting`: it writes the same.
* `noting_select` and so on: the rules for its statements, as they stand in a `do` block.
-/

namespace ReadCommitted

variable {D K W E V V' α β : Type}

/-- The program whose commits announce what `f` makes of their announcements. -/
def Prog.noting (f : List V → List V') : Prog D K W E V α → Prog D K W E V' α
  | .ret a => .ret a
  | .read next => .read fun d => (next d).noting f
  | .ask next => .ask fun e => (next e).noting f
  | .draw next => .draw fun n => (next n).noting f
  | .write row writes next => .write row writes fun d => (next d).noting f
  | .commit note next => .commit (f note) (next.noting f)
  | .rollback next => .rollback (next.noting f)
  | .unlock row next => .unlock row (next.noting f)

section Noting

variable (f : List V → List V')

theorem Prog.noting_bind (m : Prog D K W E V α) (k : α → Prog D K W E V β) :
    (m >>= k).noting f = m.noting f >>= fun a => (k a).noting f := by
  change (m.bind k).noting f = (m.noting f).bind fun a => (k a).noting f
  induction m with
  | ret a => rfl
  | read next ih => exact congrArg Prog.read (funext ih)
  | ask next ih => exact congrArg Prog.ask (funext ih)
  | draw next ih => exact congrArg Prog.draw (funext ih)
  | write row writes next ih => exact congrArg (Prog.write row writes) (funext ih)
  | commit note next ih => exact congrArg (Prog.commit (f note)) ih
  | rollback next ih => exact congrArg Prog.rollback ih
  | unlock row next ih => exact congrArg (Prog.unlock row) ih

theorem Prog.Only.noting {A : W → Prop} {B : List V → Prop} {C : α → Prop} {m : Prog D K W E V α}
    (h : m.Only A B C) : (m.noting f).Only A (fun vs => ∃ ns, B ns ∧ vs = f ns) C := by
  induction m with
  | ret a => exact h
  | read next ih => exact fun d => ih d (h d)
  | ask next ih => exact fun e => ih e (h e)
  | draw next ih => exact fun n => ih n (h n)
  | write row writes next ih => exact fun d => ⟨(h d).1, ih d (h d).2⟩
  | commit note next ih => exact ⟨⟨note, h.1, rfl⟩, ih h.2⟩
  | rollback next => exact h.elim
  | unlock row next => exact h.elim

theorem Prog.Only.noting_noting {A : W → Prop} {C : α → Prop} {m : Prog D K W E V α}
    (h : m.Only A (fun _ => False) C) (g : List V' → List V) : (m.noting f).noting g = m := by
  induction m with
  | ret a => rfl
  | read next ih => exact congrArg Prog.read (funext fun d => ih d (h d))
  | ask next ih => exact congrArg Prog.ask (funext fun e => ih e (h e))
  | draw next ih => exact congrArg Prog.draw (funext fun n => ih n (h n))
  | write row writes next ih => exact congrArg (Prog.write row writes) (funext fun d => ih d (h d).2)
  | commit note next => exact h.1.elim
  | rollback next => exact h.elim
  | unlock row next => exact h.elim

end Noting

/-! ## The rules -/

variable [Applies W D] [DecidableEq K] {R : Discipline D K W V'} {p : TxId} {pending : List W}
  {s : Store D K V'} {Q : α → List W → Store D K V' → Prop} {f : List V → List V'}
  {k : β → Prog D K W E V α}

theorem noting_select (query : D → β)
    (h : ∀ t, R.Rely p s t → R.Inv t → ((k (query (t.view pending))).noting f).Safe R p Q pending t) :
    ((Prog.select query >>= k).noting f).Safe R p Q pending s := h

theorem noting_answer (query : E → β)
    (h : ∀ t e, R.Rely p s t → R.Inv t → ((k (query e)).noting f).Safe R p Q pending t) :
    ((Prog.answer query >>= k).noting f).Safe R p Q pending s := h

theorem noting_fresh {k : ℕ → Prog D K W E V α} (h : ∀ t, R.Rely p s t → R.Inv t →
      ((k t.drawn.length).noting f).Safe R p Q pending (t.draw p)) :
    ((Prog.fresh >>= k).noting f).Safe R p Q pending s := h

theorem noting_update {k : D → Prog D K W E V α} (row : K) (writes : D → List W)
    (h : ∀ t, R.Rely p s t → R.Inv t →
      ((k (t.view pending)).noting f).Safe R p Q (pending ++ writes (t.view pending))
        (t.lock p (some row))) :
    ((Prog.update row writes >>= k).noting f).Safe R p Q pending s := fun t hst ht _ => h t hst ht

theorem noting_insert {k : Unit → Prog D K W E V α} (w : W)
    (h : ∀ t, R.Rely p s t → R.Inv t → ((k ()).noting f).Safe R p Q (pending ++ [w]) t) :
    ((Prog.insert w >>= k).noting f).Safe R p Q pending s := fun t hst ht _ => h t hst ht

theorem noting_publish {k : Unit → Prog D K W E V α} (note : List V)
    (h : ∀ t, R.Rely p s t → R.Inv t → R.Allowed t pending (f note) →
      R.Inv (t.publish p pending (f note)) ∧ R.Guar p t (t.publish p pending (f note)) ∧
        ((k ()).noting f).Safe R p Q [] (t.publish p pending (f note))) :
    ((Prog.publish note >>= k).noting f).Safe R p Q pending s := h

theorem noting_pure {a : α} (h : Q a pending s) :
    ((pure a : Prog D K W E V α).noting f).Safe R p Q pending s := h

theorem noting_part {m : Prog D K W E V β} {Q' : β → List W → Store D K V' → Prop}
    (h : (m.noting f).Safe R p Q' pending s)
    (hk : ∀ b ws t, Q' b ws t → ((k b).noting f).Safe R p Q ws t) :
    ((m >>= k).noting f).Safe R p Q pending s := by
  rw [Prog.noting_bind]
  exact h.bind hk

theorem Stable.noting_bind {P : List W → Store D K V' → Prop} {A : W → Prop} {C : β → Prop}
    {m : Prog D K W E V β} (hP : Stable R p P) (hwrite : ∀ ws s w, A w → P ws s → P (ws ++ [w]) s)
    (hm : m.Only A (fun _ => False) C) (h : P pending s)
    (hk : ∀ b ws t, C b → P ws t → ((k b).noting f).Safe R p Q ws t) :
    ((m >>= k).noting f).Safe R p Q pending s := by
  rw [Prog.noting_bind]
  have hsilent : (m.noting f).Only A (fun _ => False) C :=
    (hm.noting f).mono (fun _ h => h) (fun _ ⟨_, hnote, _⟩ => hnote) fun _ h => h
  exact hP.bind hwrite hsilent h hk

end ReadCommitted
