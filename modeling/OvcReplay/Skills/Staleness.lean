import OvcReplay.Skills.AsyncAssurance

/-! # Staleness of assurance futures

Signals and frontier changes reach a future in any order. A frontier change that was not reusable
should keep the future from ever passing again; it does so exactly in the runs in which no new
success signal comes later. -/

namespace OvcReplay.Skills

open List Python FutureState

namespace AssuranceFuture

/-! ## Runs -/

/-- A call that is given a future. -/
inductive Call where
  | signal (s : AssuranceCompletionSignal)
  | frontierChange (changed : List PyStr)

variable (P : Platform) (upper : PyStr → PyStr)

/-- The call. -/
def call (f : AssuranceFuture) : Call → Except AssuranceError AssuranceFuture
  | .signal s => f.applyCompletionSignal P upper s
  | .frontierChange changed => .ok (f.reuseAfterFrontierChange changed)

/-- The future after a call; a call that raises leaves it as it was. -/
def receive (f : AssuranceFuture) (c : Call) : AssuranceFuture :=
  match f.call P upper c with
  | .ok f' => f'
  | .error _ => f

/-- The future after a sequence of calls. -/
def after (f : AssuranceFuture) (calls : List Call) : AssuranceFuture :=
  calls.foldl (receive P upper) f

variable {P upper} {f : AssuranceFuture} {s : AssuranceCompletionSignal} {changed : List PyStr}

@[simp] theorem after_nil (f : AssuranceFuture) : f.after P upper [] = f := rfl

theorem after_snoc (f : AssuranceFuture) (calls : List Call) (c : Call) :
    f.after P upper (calls ++ [c]) = (f.after P upper calls).receive P upper c := by
  rw [after, foldl_append]
  rfl

/-! ## One call -/

variable (P) in
/-- `apply_completion_signal` does not raise and the signal was not seen before. -/
structure Accepts (f : AssuranceFuture) (s : AssuranceCompletionSignal) (signalId : HexDigest) :
    Prop where
  addressed : ∃ futureId, f.futureId P = .ok futureId ∧ s.futureId = futureId.text
  binds : s.Binds f
  signalId_eq : s.signalId P = .ok signalId
  new : signalId.text ∉ f.evidenceRefs
  agrees : f.state.Terminal → f.conclusion = some s.conclusion

/-- **A call that returns had seen the signal or accepts it.** -/
theorem applyCompletionSignal_ok {f' : AssuranceFuture}
    (h : f.applyCompletionSignal P upper s = .ok f') :
    f' = f ∨ ∃ signalId, Accepts P f s signalId ∧ f' = f.concluded upper s signalId := by
  simp only [applyCompletionSignal, bind_ok, mapError_ok, check_ok] at h
  obtain ⟨futureId, hfutureId, -, haddressed, -, hbinds, signalId, hsignalId, h⟩ := h
  by_cases hseen : signalId.text ∈ f.evidenceRefs
  · rw [if_pos hseen] at h
    exact .inl (Except.ok.inj h).symm
  · rw [if_neg hseen, bind_ok] at h
    obtain ⟨_, hagrees, h⟩ := h
    rw [check_ok, not_and_not_right] at hagrees
    exact .inr ⟨signalId, ⟨⟨futureId, hfutureId, haddressed⟩, hbinds, hsignalId, hseen, hagrees⟩,
      (Except.ok.inj h).symm⟩

theorem Accepts.applyCompletionSignal {signalId : HexDigest} (h : Accepts P f s signalId) :
    f.applyCompletionSignal P upper s = .ok (f.concluded upper s signalId) := by
  obtain ⟨futureId, hfutureId, haddressed⟩ := h.addressed
  have hagrees : ¬ (f.state.Terminal ∧ f.conclusion ≠ some s.conclusion) :=
    not_and_not_right.mpr h.agrees
  simp only [AssuranceFuture.applyCompletionSignal, bind_ok, mapError_ok, check_ok]
  refine ⟨futureId, hfutureId, (), haddressed, (), h.binds, signalId, h.signalId_eq, ?_⟩
  rw [if_neg h.new, bind_ok]
  exact ⟨(), check_ok.mpr hagrees, rfl⟩

/-- **What a call does to a future.** -/
inductive Moves (P : Platform) (upper : PyStr → PyStr) (f : AssuranceFuture) :
    Call → AssuranceFuture → Prop
  | unmoved (c : Call) (hfresh : ∀ changed, c = .frontierChange changed → f.state = pass →
      f.Reusable changed) : Moves P upper f c f
  | concluded {s : AssuranceCompletionSignal} {signalId : HexDigest}
      (haccepts : Accepts P f s signalId) :
      Moves P upper f (.signal s) (f.concluded upper s signalId)
  | invalidated {changed : List PyStr} (hpass : f.state = pass) (hreuse : ¬ f.Reusable changed) :
      Moves P upper f (.frontierChange changed) { f with state := stale }

variable (P upper) in
/-- Every call makes one of these moves. -/
theorem moves_receive (f : AssuranceFuture) (c : Call) :
    Moves P upper f c (f.receive P upper c) := by
  cases c with
  | signal s =>
    have hsignal : ∀ changed, Call.signal s = .frontierChange changed → f.state = pass →
        f.Reusable changed := fun _ heq => by cases heq
    rw [receive, call]
    cases happly : f.applyCompletionSignal P upper s with
    | error e => exact .unmoved _ hsignal
    | ok f' =>
      rcases applyCompletionSignal_ok happly with rfl | ⟨signalId, haccepts, rfl⟩
      · exact .unmoved _ hsignal
      · exact .concluded haccepts
  | frontierChange changed =>
    show Moves P upper f _ (f.reuseAfterFrontierChange changed)
    rw [reuseAfterFrontierChange]
    by_cases hpass : f.state = pass
    · rw [if_neg (not_not_intro hpass)]
      by_cases hreuse : f.Reusable changed
      · rw [if_pos hreuse]
        refine .unmoved _ fun changed' heq _ => ?_
        rw [Call.frontierChange.injEq] at heq
        exact heq ▸ hreuse
      · rw [if_neg hreuse]
        exact .invalidated hpass hreuse
    · rw [if_pos hpass]
      exact .unmoved _ fun _ _ h => absurd h hpass

/-! ## What runs keep -/

/-- What decides about the reuse of a future. -/
def reuse (f : AssuranceFuture) : AssuranceClass × ReuseClass × List PyStr :=
  (f.assuranceClass, f.reuseClass, f.dependencyScope)

theorem reusable_congr {f' : AssuranceFuture} (h : f'.reuse = f.reuse) :
    f'.Reusable changed ↔ f.Reusable changed := by
  simp only [reuse, Prod.mk.injEq] at h
  rw [Reusable, Reusable, h.1, h.2.1, h.2.2]

variable (P upper) in
/-- No call changes what decides about the reuse. -/
theorem reuse_after (f : AssuranceFuture) (calls : List Call) :
    (f.after P upper calls).reuse = f.reuse := by
  induction calls using reverseRecOn with
  | nil => rfl
  | append_singleton calls c ih =>
    rw [after_snoc, ← ih]
    generalize f.after P upper calls = g
    have hmoves := moves_receive P upper g c
    generalize g.receive P upper c = g' at hmoves ⊢
    cases hmoves <;> rfl

variable (upper) in
/-- The state of a future comes from its conclusion, or it was never completed, or it is stale. -/
def Settled (f : AssuranceFuture) : Prop :=
  f.state = created ∨ f.state = stale ∨
    ∃ conclusion, f.conclusion = some conclusion ∧ f.state = signalState upper conclusion

variable (P upper) in
/-- **Every state of a run is settled.** -/
theorem settled_after (hf : f.state = created) (calls : List Call) :
    Settled upper (f.after P upper calls) := by
  induction calls using reverseRecOn with
  | nil => exact .inl hf
  | append_singleton calls c ih =>
    rw [after_snoc]
    generalize f.after P upper calls = g at ih
    have hmoves := moves_receive P upper g c
    generalize g.receive P upper c = g' at hmoves ⊢
    cases hmoves with
    | unmoved _ => exact ih
    | concluded haccepts => exact .inr (.inr ⟨_, rfl, rfl⟩)
    | invalidated hpass hreuse => exact .inr (.inl rfl)

/-! ## Staleness -/

/-- One of the frontier changes of the run was not reusable. -/
def Invalidated (f : AssuranceFuture) (calls : List Call) : Prop :=
  ∃ changed, Call.frontierChange changed ∈ calls ∧ ¬ f.Reusable changed

variable (P) in
/-- No set with the default allowed states that requires the future is satisfied with it. -/
def SatisfiesNothing (f : AssuranceFuture) : Prop :=
  ∀ (set : RequiredAssuranceSet) (futures : Dict PyStr AssuranceFuture) (futureId : HexDigest),
    set.allowedTerminalStates = defaultTerminalStates → f.futureId P = .ok futureId →
    futureId.text ∈ set.requiredFutureIds → Dict.get? futures futureId.text = some f →
    requiredAssuranceSatisfied set futures = false

variable (P upper) in
/-- **Staleness is sticky in a run**: after a frontier change that was not reusable the future is
never passing and satisfies nothing. -/
def StalenessSticky (f : AssuranceFuture) (calls : List Call) : Prop :=
  ∀ pre, pre <+: calls → f.Invalidated pre →
    (f.after P upper pre).state ≠ pass ∧ SatisfiesNothing P (f.after P upper pre)

variable (P upper) in
/-- A success signal completes the future: it is accepted, in a state that is not terminal. -/
def Completes (f : AssuranceFuture) (s : AssuranceCompletionSignal) : Prop :=
  (∃ signalId, Accepts P f s signalId) ∧ ¬ f.state.Terminal ∧ upper s.conclusion = py "SUCCESS"

variable (P upper) in
/-- After a frontier change that was not reusable no success signal completes the future. -/
def NoLateSuccess (f : AssuranceFuture) (calls : List Call) : Prop :=
  ∀ pre s, pre ++ [.signal s] <+: calls → f.Invalidated pre →
    ¬ Completes P upper (f.after P upper pre) s

theorem signalState_eq_pass {conclusion : PyStr} :
    signalState upper conclusion = pass ↔ upper conclusion = py "SUCCESS" := by
  rw [signalState]
  split
  · simp [*]
  · split
    · simp [*]
    · split <;> simp [*]

/-- A future that is not passing satisfies nothing. -/
theorem satisfiesNothing_of_ne_pass (h : f.state ≠ pass) : SatisfiesNothing P f := by
  intro set futures futureId hallowed _ hreq hget
  rw [requiredAssuranceSatisfied, all_eq_false]
  refine ⟨futureId.text, hreq, ?_⟩
  rw [hget, hallowed, assured]
  have htext : f.state.text ∉ defaultTerminalStates := by
    rw [defaultTerminalStates, mem_singleton]
    intro heq
    have hof := congrArg FutureState.ofText? heq
    rw [FutureState.ofText?_text, FutureState.ofText?_text, Option.some.injEq] at hof
    exact h hof
  simp [htext]

/-- **A late success is what makes an invalidated future pass.** -/
theorem ne_pass_of_noLateSuccess (hf : f.state = created) {calls : List Call}
    (h : NoLateSuccess P upper f calls) (hinval : f.Invalidated calls) :
    (f.after P upper calls).state ≠ pass := by
  induction calls using reverseRecOn with
  | nil => simp [Invalidated] at hinval
  | append_singleton calls c ih =>
    have hlate : NoLateSuccess P upper f calls := fun pre s hpre =>
      h pre s (hpre.trans (prefix_append _ _))
    have hsettled := settled_after P upper hf calls
    have hreuse := reuse_after P upper f calls
    have hlast : ∀ s, c = .signal s → f.Invalidated calls →
        ¬ Completes P upper (f.after P upper calls) s := by
      rintro s rfl
      exact h calls s (prefix_refl _)
    rw [after_snoc]
    generalize f.after P upper calls = g at ih hsettled hreuse hlast
    have hmoves := moves_receive P upper g c
    generalize g.receive P upper c = g' at hmoves ⊢
    obtain ⟨changed, hmem, hchg⟩ := hinval
    rw [mem_append, mem_singleton] at hmem
    cases hmoves with
    | unmoved _ hfresh =>
      rcases hmem with hmem | rfl
      · exact ih hlate ⟨changed, hmem, hchg⟩
      · intro hpass
        exact hchg ((reusable_congr hreuse).mp (hfresh changed rfl hpass))
    | @concluded s signalId haccepts =>
      rcases hmem with hmem | heq
      · intro hpass
        have hbef : f.Invalidated calls := ⟨changed, hmem, hchg⟩
        have hsuccess : upper s.conclusion = py "SUCCESS" := signalState_eq_pass.mp hpass
        refine hlast s rfl hbef ⟨⟨signalId, haccepts⟩, ?_, hsuccess⟩
        -- a terminal state would be the one of the same conclusion, which passes
        intro hterm
        rcases hsettled with hst | hst | ⟨conclusion, hconclusion, hst⟩
        · rw [hst] at hterm
          exact hterm
        · rw [hst] at hterm
          exact hterm
        · have heq := hconclusion.symm.trans (haccepts.agrees hterm)
          rw [Option.some.injEq] at heq
          exact ih hlate hbef (hst.trans (heq ▸ hpass))
      · cases heq
    | invalidated hpass _ => simp

/-- **Staleness is sticky exactly in the runs without a late success.** -/
theorem staleness_sticky_iff (P : Platform) (upper : PyStr → PyStr) (f : AssuranceFuture)
    (hf : f.state = created) (calls : List Call) :
    StalenessSticky P upper f calls ↔ NoLateSuccess P upper f calls := by
  constructor
  · rintro h pre s hpre ⟨changed, hmem, hchg⟩ ⟨⟨signalId, haccepts⟩, -, hsuccess⟩
    have hinval : f.Invalidated (pre ++ [.signal s]) :=
      ⟨changed, mem_append_left _ hmem, hchg⟩
    refine (h _ hpre hinval).1 ?_
    rw [after_snoc, receive, call, haccepts.applyCompletionSignal]
    exact signalState_eq_pass.mpr hsuccess
  · intro h pre hpre hinval
    have hne := ne_pass_of_noLateSuccess hf
      (fun pre' s hpre' => h pre' s (hpre'.trans hpre)) hinval
    exact ⟨hne, satisfiesNothing_of_ne_pass hne⟩

/-! ## A late signal -/

/-- `str.upper` of an ASCII text. -/
def asciiUpper (text : PyStr) : PyStr :=
  text.map fun c => if 97 ≤ c.val ∧ c.val ≤ 122 then .ofByte (c.val - 32).toUInt8 else c

/-- The arguments of a future with the default classes. -/
def sampleArguments : FutureArguments where
  programmeId := py "PROGRAMME"
  packetId := py "PACKET"
  payloadId := py "PAYLOAD"
  assuranceProfileId := py "PROFILE"
  candidateCommit := py "c0ffee"
  providerAdapterId := py "github"
  workflowName := py "checks"
  runId := py "1"
  checkName := py "unit"

/-- The future of these arguments. -/
def sample : AssuranceFuture := normalised sampleArguments created (by decide +kernel)

/-- A success signal for the sample. -/
def sampleSuccess (observedAt : String) : AssuranceCompletionSignal where
  futureId := ((sample.futureId .reference).toOption.map HexDigest.text).getD []
  providerAdapterId := sample.providerAdapterId
  repository := py "repository"
  candidateCommit := sample.candidateCommit
  workflowName := sample.workflowName
  runId := sample.runId
  checkName := sample.checkName
  conclusion := py "success"
  observedAt := py observedAt

/-- A success, a frontier change and the success of a second delivery. -/
def sampleCalls : List Call :=
  [.signal (sampleSuccess "2026-01-01T00:00:00Z"), .frontierChange [py "other"],
    .signal (sampleSuccess "2026-01-01T00:05:00Z")]

/-- In the run of the sample staleness is sticky iff no success comes late. -/
theorem staleness_sticky_iff_sample : sample.state = created ∧
    (StalenessSticky .reference asciiUpper sample sampleCalls ↔
      NoLateSuccess .reference asciiUpper sample sampleCalls) :=
  ⟨rfl, staleness_sticky_iff .reference asciiUpper sample rfl sampleCalls⟩

/-- **A second success signal makes a stale future pass again.** -/
theorem not_stalenessSticky : ¬ ∀ (f : AssuranceFuture) (calls : List Call), f.state = created →
    StalenessSticky .reference asciiUpper f calls := by
  intro H
  have hpass : (sample.after .reference asciiUpper sampleCalls).state = pass := by
    decide +kernel
  have hinval : sample.Invalidated sampleCalls :=
    ⟨[py "other"], by simp [sampleCalls], by decide +kernel⟩
  exact (H sample sampleCalls rfl sampleCalls (prefix_refl _) hinval).1 hpass

end AssuranceFuture

end OvcReplay.Skills
