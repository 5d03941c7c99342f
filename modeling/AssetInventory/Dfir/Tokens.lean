import AssetInventory.Dfir.ExactlyOnce

/-!
# The daily token counter

Callbacks, the local analysis and the chat read the counter, wait, and write the sum back.  The row
of the counter is never locked, so an amount that another process has committed in the meantime is
overwritten.

* `committedTokens`: the amounts of the committed operations.
* `CounterFresh`: the condition on a commit.  The counter is as the operation has read it.
* `tokens_of_commit`: one commit adds its amount exactly under this condition.
* `tokens_eq_sum`: in a run of such commits the counter is the sum.
* `tokens_lost`: two callbacks that interleave, of which only one is counted.
-/

namespace AssetInventory

open PyJson PyTime Orm DfirInvestigation RowStore Interleaving

/-- The tokens that the commit of an operation should have added. -/
def amountOf : Event → ℤ
  | .committed _ _ (some tw) => tw.amount
  | _ => 0

/-- The tokens of the committed operations. -/
def committedTokens (log : List Event) : ℤ := (log.map amountOf).sum

theorem committedTokens_cons (e : Event) (log : List Event) :
    committedTokens (e :: log) = amountOf e + committedTokens log := List.sum_cons

theorem committedTokens_replies (replies : List Reply) (log : List Event) :
    committedTokens (replies.map Event.replied ++ log) = committedTokens log := by
  induction replies with
  | nil => rfl
  | cons reply replies ih =>
    rw [List.map_cons, List.cons_append, committedTokens_cons, ih]
    exact zero_add _

/-- **The condition on a commit**: the counter still is what the operation has read, or there is
nothing to add. -/
def CounterFresh (w : World) : Action → Prop
  | .commit p => ∀ f ∈ (w.procs p).todo.head?, ∀ tw ∈ f.tokens, tw.amount = 0 ∨ w.tokens = tw.read
  | _ => True

instance (w : World) : (a : Action) → Decidable (CounterFresh w a)
  | .commit _ => by dsimp only [CounterFresh]; infer_instance
  | .advance _ | .create .. | .move .. | .close _ => isTrue trivial

section Runs

variable {cfg : Settings} {w w' : World} {p : Pid}

/-- **One write of the counter** adds its amount exactly if the condition holds. -/
theorem tokensAfter_eq_add_iff (n : ℤ) (tw : TokenWrite) :
    tokensAfter n (some tw) = n + tw.amount ↔ tw.amount = 0 ∨ n = tw.read := by
  change pick tw.read (tw.read + tw.amount) n = n + tw.amount ↔ _
  rcases pick_cases tw.read (tw.read + tw.amount) n with ⟨hsame, hpick⟩ | ⟨hdiff, hpick⟩
  · have hzero : tw.amount = 0 := by omega
    rw [hpick]
    exact iff_of_true (by omega) (Or.inl hzero)
  · rw [hpick]
    constructor
    · intro h
      exact Or.inr (by omega)
    · rintro (hzero | hread)
      · exact absurd (by omega) hdiff
      · omega

theorem tokens_of_commit {f : Flush} {rest : List Flush} (htodo : (w.procs p).todo = f :: rest)
    (hG : CounterFresh w (.commit p)) :
    (w.committed p f rest).tokens - committedTokens (w.committed p f rest).log =
      w.tokens - committedTokens w.log := by
  have hlog : committedTokens (w.committed p f rest).log =
      amountOf (.committed p f.writes f.tokens) + committedTokens w.log :=
    (committedTokens_replies f.reply.toList _).trans (committedTokens_cons _ _)
  rw [hlog]
  change tokensAfter w.tokens f.tokens - _ = _
  cases htokens : f.tokens with
  | none =>
    change w.tokens - (0 + committedTokens w.log) = _
    omega
  | some tw =>
    have hfresh := hG f (by rw [htodo]; rfl) tw htokens
    rw [(tokensAfter_eq_add_iff w.tokens tw).mpr hfresh]
    change w.tokens + tw.amount - (tw.amount + committedTokens w.log) = _
    omega

theorem tokens_step {a : Action} (hG : CounterFresh w a) (h : step cfg w a = some w') :
    w'.tokens - committedTokens w'.log = w.tokens - committedTokens w.log := by
  cases step_cases h with
  | @move p m e htodo hcase =>
    have hlog : committedTokens (e.said ++ w.log) = committedTokens w.log := by
      rcases World.said_cases hcase with ⟨replies, hsaid⟩ | ⟨i, queue, -, rfl⟩
      · rw [hsaid]
        exact committedTokens_replies replies w.log
      · exact (committedTokens_cons _ _).trans (zero_add _)
    change w.tokens - committedTokens (e.said ++ w.log) = _
    rw [hlog]
  | commit htodo => exact tokens_of_commit htodo hG
  | _ => rfl

/-- **No update of the counter is lost** in a run whose commits meet the condition: the counter is
its initial value and the tokens of the committed operations. -/
theorem tokens_eq_sum (cfg : Settings) {w₀ w : World} (hquiet : w₀.Quiet)
    (hrun : Runs (step cfg) CounterFresh w₀ w) : w.tokens = w₀.tokens + committedTokens w.log := by
  have hsame := hrun.invariant
    (I := fun v => v.tokens - committedTokens v.log = w₀.tokens - committedTokens w₀.log)
    (fun v a v' hI hG hstep => (tokens_step hG hstep).trans hI) rfl
  rw [hquiet.log] at hsame
  change w.tokens - committedTokens w.log = w₀.tokens - 0 at hsame
  omega

end Runs

/-! ## Two callbacks -/

/-- The system with two dispatched investigations. -/
def twoDispatched : World :=
  World.start 0 ((Table.empty.insert "1" dispatchedRow).insert "2" dispatchedRow) 0

/-- **An update is lost.**  The callbacks of two investigations read the counter before either has
committed. -/
theorem tokens_lost : ¬ ∀ w, Runs (step (sampleSettings 12)) anyAction twoDispatched w →
      w.tokens = twoDispatched.tokens + committedTokens w.log := by
  intro h
  obtain ⟨w, hrun, hw⟩ := exists_runs_of_exec (G := anyAction) (step (sampleSettings 12))
    twoDispatched
    [.move 0 (.callback "1" jobResult), .move 1 (.callback "2" jobResult), .commit 0, .commit 1]
    (p := fun w => decide (w.tokens = 42 ∧ committedTokens w.log = 84)) (by decide +kernel)
  obtain ⟨htokens, hcommitted⟩ := of_decide_eq_true hw
  have hsum := h w hrun
  rw [htokens, hcommitted] at hsum
  cases hsum

theorem tokens_eq_sum_in_turn : ∃ w, Runs (step (sampleSettings 12)) CounterFresh twoDispatched w ∧
      committedTokens w.log = 84 ∧ w.tokens = twoDispatched.tokens + committedTokens w.log := by
  obtain ⟨w, hrun, hw⟩ := exists_runs_of_exec (G := CounterFresh) (step (sampleSettings 12))
    twoDispatched
    [.move 0 (.callback "1" jobResult), .commit 0, .move 1 (.callback "2" jobResult), .commit 1]
    (p := fun w => decide (committedTokens w.log = 84)) (by decide +kernel)
  exact ⟨w, hrun, of_decide_eq_true hw,
    tokens_eq_sum (sampleSettings 12) (World.quiet_start _ _ _) hrun⟩

end AssetInventory
