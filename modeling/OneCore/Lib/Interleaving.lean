/-
# Interleaved calls

Any number of calls run at the same time on one shared state.  A running call is what it still has to do.
One step of a call reads and writes the shared state at once and tells what has happened; afterwards the
call has something left to do, or it has returned.  Whichever call is next takes the next step.

A call that has returned never runs again, so an event of the run belongs to one call.
-/
import OneCore.Lib.Transition

namespace Interleaving

open List Option Function

inductive Status (κ : Type*) where
  | idle
  | running (call : κ)
  | returned

/-- The shared state and the calls. -/
structure Config (ι σ κ : Type*) where
  shared : σ
  status : ι → Status κ

/-- A call begins, or it takes a step. -/
inductive Label (ι κ ℓ : Type*) where
  | begins (i : ι) (call : κ)
  | steps (i : ι) (event : ℓ)

/-- The status of a call with the given rest. -/
def Status.after {κ : Type*} : Option κ → Status κ
  | some call => .running call
  | none => .returned

lemma Status.after_eq_running_iff {κ : Type*} {rest : Option κ} {call : κ} :
    Status.after rest = .running call ↔ rest = some call := by
  cases rest with
  | none => exact iff_of_false nofun nofun
  | some call' => exact ⟨fun h => congrArg some (Status.running.inj h), fun h => by cases h; rfl⟩

variable {ι σ κ ℓ α : Type*} [DecidableEq ι]

/-- Calls begin with one of the requests; a running call steps by `next`. -/
inductive Step (request : κ → Prop) (next : σ → κ → ℓ → σ → Option κ → Prop) :
    Config ι σ κ → Label ι κ ℓ → Config ι σ κ → Prop
  | begins {c : Config ι σ κ} {i : ι} {call : κ} (hidle : c.status i = .idle)
      (hrequest : request call) :
      Step request next c (.begins i call) ⟨c.shared, update c.status i (.running call)⟩
  | steps {c : Config ι σ κ} {i : ι} {call : κ} {event : ℓ} {s : σ} {rest : Option κ}
      (hrunning : c.status i = .running call) (hnext : next c.shared call event s rest) :
      Step request next c (.steps i event) ⟨s, update c.status i (.after rest)⟩

variable {request : κ → Prop} {next : σ → κ → ℓ → σ → Option κ → Prop} {c c' : Config ι σ κ}
  {l : Label ι κ ℓ}

lemma Step.cases (h : Step request next c l c') :
    (∃ i call, l = .begins i call ∧ c.status i = .idle ∧ request call ∧ c'.shared = c.shared ∧
      c'.status = update c.status i (.running call)) ∨
    ∃ i call event rest, l = .steps i event ∧ c.status i = .running call ∧
      next c.shared call event c'.shared rest ∧
      c'.status = update c.status i (.after rest) := by
  cases h with
  | begins hidle hrequest => exact .inl ⟨_, _, rfl, hidle, hrequest, rfl, rfl⟩
  | steps hrunning hnext => exact .inr ⟨_, _, _, _, rfl, hrunning, hnext, rfl⟩

lemma Step.of_steps (h : Step request next c l c') {i : ι} {event : ℓ} (hlab : l = .steps i event) :
    ∃ call rest, c.status i = .running call ∧ next c.shared call event c'.shared rest ∧
      c'.status = update c.status i (.after rest) := by
  subst hlab
  cases h with
  | steps hrunning hnext => exact ⟨_, _, hrunning, hnext, rfl⟩

lemma Step.returned (h : Step request next c l c') {i : ι}
    (hi : c.status i = .returned) : c'.status i = .returned := by
  have hne : ∀ {j : ι} {status : Status κ}, c.status j = status → status ≠ .returned → i ≠ j := by
    rintro j status hj hst rfl
    exact hst (hj.symm.trans hi)
  cases h with
  | begins hidle => exact (update_of_ne (hne hidle nofun) _ _).trans hi
  | steps hrunning => exact (update_of_ne (hne hrunning nofun) _ _).trans hi

variable {c₀ : Config ι σ κ} {tr pre past : List (Transition (Config ι σ κ) (Label ι κ ℓ))}
  {t : Transition (Config ι σ κ) (Label ι κ ℓ)} {i : ι} {event : ℓ}

lemma exists_running_of_steps (h : Run (Step request next) c₀ tr c) (hpre : pre ++ [t] <+: tr)
    (hlab : t.label = .steps i event) :
    ∃ call rest, Run (Step request next) c₀ pre t.src ∧ t.src.status i = .running call ∧
      next t.src.shared call event t.dst.shared rest ∧
      t.dst.status = update t.src.status i (.after rest) := by
  obtain ⟨hrun, hstep⟩ := h.of_append_singleton hpre
  obtain ⟨call, rest, hrunning, hnext, hst⟩ := hstep.of_steps hlab
  exact ⟨call, rest, hrun, hrunning, hnext, hst⟩

lemma not_steps_of_returned {r : Transition (Config ι σ κ) (Label ι κ ℓ)}
    (h : Run (Step request next) c₀ (pre ++ r :: tr) c) (ht : t ∈ pre)
    (hret : t.dst.status i = .returned) : r.label ≠ .steps i event := by
  intro hlab
  have hpre : pre ++ [r] <+: pre ++ r :: tr := ⟨tr, by simp⟩
  obtain ⟨call, _, hrun, hrunning, -⟩ := exists_running_of_steps h hpre hlab
  obtain ⟨_, _, -, -, -, hrest⟩ := hrun.split_of_mem ht
  have hstill : r.src.status i = .returned :=
    hrest.preserves (P := fun c => c.status i = .returned) (fun _ _ hstep => hstep.returned) hret
  exact absurd (hrunning.symm.trans hstill) nofun

/-! ### A call on its own -/

/-- A call that is not interrupted has come to its end.  The event is that of its last step. -/
inductive Completes (next : σ → κ → ℓ → σ → Option κ → Prop) : σ → κ → ℓ → σ → Prop
  | last {s s' : σ} {call : κ} {event : ℓ} (h : next s call event s' none) :
      Completes next s call event s'
  | more {s m s' : σ} {call rest : κ} {event event' : ℓ} (h : next s call event m (some rest))
      (hrest : Completes next m rest event' s') : Completes next s call event' s'

variable {s s' : σ} {call : κ} {status : ι → Status κ}

lemma Completes.exists_run_of_running (h : Completes next s call event s')
    (hrunning : status i = .running call) :
    ∃ tr, Run (Step request next) ⟨s, status⟩ tr ⟨s', update status i .returned⟩ := by
  induction h generalizing status with
  | last h => exact ⟨_, .cons (.steps hrunning h) (.refl _)⟩
  | @more s m s' call rest event event' h _ ih =>
    have hself : update status i (.running rest) i = .running rest := update_self ..
    obtain ⟨tr, hrun⟩ := ih hself
    rw [update_idem] at hrun
    exact ⟨_, .cons (.steps hrunning h) hrun⟩

lemma Completes.exists_run (h : Completes next s call event s') (hrequest : request call)
    (hidle : status i = .idle) :
    ∃ tr, Run (Step request next) ⟨s, status⟩ tr ⟨s', update status i .returned⟩ := by
  have hself : update status i (.running call) i = .running call := update_self ..
  obtain ⟨tr, hrun⟩ : ∃ tr, Run (Step request next) _ tr _ := h.exists_run_of_running hself
  rw [update_idem] at hrun
  exact ⟨_, .cons (.begins hidle hrequest) hrun⟩

/-! ### Invariants -/

/-- What is kept in a run, in three parts: a property of the shared state, one of each running call,
and one of each two running calls.  All may speak of the past. -/
structure Invariant {σ κ ℓ : Type*} (ι : Type*) (request : κ → Prop)
    (next : σ → κ → ℓ → σ → Option κ → Prop) where
  shared : List (Transition (Config ι σ κ) (Label ι κ ℓ)) → σ → Prop
  call : List (Transition (Config ι σ κ) (Label ι κ ℓ)) → σ → ι → κ → Prop
  pair : κ → κ → Prop
  pair_symm : ∀ {a b}, pair a b → pair b a
  pair_request : ∀ {a b}, request a → pair a b
  call_request : ∀ {past s i a}, request a → call past s i a
  /-- The arrival of a request changes nothing else. -/
  shared_begins : ∀ {past t i a}, t.label = .begins i a → t.dst.shared = t.src.shared →
    shared past t.src.shared → shared (past ++ [t]) t.dst.shared
  call_begins : ∀ {past t i a j b}, t.label = .begins i a → t.dst.shared = t.src.shared →
    call past t.src.shared j b → call (past ++ [t]) t.dst.shared j b
  /-- A step keeps the property of the shared state. -/
  shared_steps : ∀ {past t i a event rest}, t.label = .steps i event →
    next t.src.shared a event t.dst.shared rest → shared past t.src.shared →
    call past t.src.shared i a → shared (past ++ [t]) t.dst.shared
  /-- A step establishes the property of what is left of its call. -/
  call_steps : ∀ {past t i a event b}, t.label = .steps i event →
    next t.src.shared a event t.dst.shared (some b) → shared past t.src.shared →
    call past t.src.shared i a → call (past ++ [t]) t.dst.shared i b
  /-- A step keeps the property of the other calls. -/
  call_others : ∀ {past t i a event rest j b}, t.label = .steps i event → j ≠ i →
    next t.src.shared a event t.dst.shared rest → shared past t.src.shared →
    call past t.src.shared i a → call past t.src.shared j b → pair a b →
    call (past ++ [t]) t.dst.shared j b
  /-- A step keeps the property of its call and another one. -/
  pair_steps : ∀ {past s s' i a event a' j b}, next s a event s' (some a') →
    shared past s → call past s i a → call past s j b → pair a b → pair a' b

/-- What the invariant says of a configuration. -/
structure Invariant.Holds (inv : Invariant ι request next)
    (past : List (Transition (Config ι σ κ) (Label ι κ ℓ))) (c : Config ι σ κ) : Prop where
  shared : inv.shared past c.shared
  call : ∀ {i a}, c.status i = .running a → inv.call past c.shared i a
  pair : ∀ {i j a b}, i ≠ j → c.status i = .running a → c.status j = .running b → inv.pair a b

variable {inv : Invariant ι request next}

lemma running_update {j : ι} {s : Status κ} {a : κ}
    (h : update status i s j = .running a) :
    (j = i ∧ s = .running a) ∨ (j ≠ i ∧ status j = .running a) := by
  rw [update_apply] at h
  split at h
  · next heq => exact .inl ⟨heq, h⟩
  · next hne => exact .inr ⟨hne, h⟩

lemma Invariant.Holds.step (hstep : Step request next t.src t.label t.dst) (h : inv.Holds past t.src) :
    inv.Holds (past ++ [t]) t.dst := by
  rcases hstep.cases with ⟨i, a, hlab, -, hrequest, hshared, hst⟩ |
    ⟨i, a, event, rest, hlab, hrunning, hnext, hst⟩
  · refine ⟨inv.shared_begins hlab hshared h.shared, fun {j b} hj => ?_,
      fun {j k b b'} hne hj hk => ?_⟩
    · rw [hst] at hj
      rcases running_update hj with ⟨-, hb⟩ | ⟨-, hb⟩
      · cases hb
        exact inv.call_request hrequest
      · exact inv.call_begins hlab hshared (h.call hb)
    · rw [hst] at hj hk
      rcases running_update hj with ⟨rfl, hb⟩ | ⟨-, hb⟩
      · cases hb
        exact inv.pair_request hrequest
      rcases running_update hk with ⟨rfl, hb'⟩ | ⟨-, hb'⟩
      · cases hb'
        exact inv.pair_symm (inv.pair_request hrequest)
      · exact h.pair hne hb hb'
  · have hcall := h.call hrunning
    have haft : ∀ {b}, Status.after rest = .running b → rest = some b :=
      Status.after_eq_running_iff.1
    refine ⟨inv.shared_steps hlab hnext h.shared hcall, fun {j b} hj => ?_,
      fun {j k b b'} hne hj hk => ?_⟩
    · rw [hst] at hj
      rcases running_update hj with ⟨rfl, hb⟩ | ⟨hji, hb⟩
      · exact inv.call_steps hlab (haft hb ▸ hnext) h.shared hcall
      · exact inv.call_others hlab hji hnext h.shared hcall (h.call hb)
          (h.pair hji.symm hrunning hb)
    · rw [hst] at hj hk
      have hpair : ∀ {j b b'}, j ≠ i → rest = some b → t.src.status j = .running b' → inv.pair b b' :=
        fun hji hrest hj => inv.pair_steps (hrest ▸ hnext) h.shared hcall (h.call hj)
          (h.pair hji.symm hrunning hj)
      rcases running_update hj with ⟨rfl, hb⟩ | ⟨hji, hb⟩
      · rcases running_update hk with ⟨rfl, -⟩ | ⟨hki, hb'⟩
        · exact absurd rfl hne
        · exact hpair hki (haft hb) hb'
      · rcases running_update hk with ⟨rfl, hb'⟩ | ⟨-, hb'⟩
        · exact inv.pair_symm (hpair hji (haft hb') hb)
        · exact h.pair hne hb hb'

lemma Invariant.holds_of_run (hs : inv.shared [] s)
    (h : Run (Step request next) ⟨s, fun _ => .idle⟩ tr c) : inv.Holds tr c :=
  h.history ⟨hs, fun hi => (nomatch hi), fun _ hi => (nomatch hi)⟩ fun _ _ _ hstep hpast =>
    hpast.step hstep

/-! ### The steps of one call -/

def Label.isStepOf (i : ι) : Label ι κ ℓ → Bool
  | .begins _ _ => false
  | .steps j _ => j = i

/-- The steps of a call, in their order. -/
def stepsOf (i : ι) (tr : List (Transition (Config ι σ κ) (Label ι κ ℓ))) :
    List (Transition (Config ι σ κ) (Label ι κ ℓ)) :=
  tr.filter fun t => t.label.isStepOf i

lemma stepsOf_append_of_step (hlab : t.label = .steps i event) :
    stepsOf i (tr ++ [t]) = stepsOf i tr ++ [t] := by
  simp [stepsOf, Label.isStepOf, hlab]

lemma stepsOf_append_of_ne (hlab : ∀ event, t.label ≠ .steps i event) :
    stepsOf i (tr ++ [t]) = stepsOf i tr := by
  have hnot : t.label.isStepOf i = false := by
    cases hl : t.label with
    | begins => rfl
    | steps j event =>
      refine decide_eq_false fun heq => hlab event ?_
      rw [hl, heq]
  simp [stepsOf, hnot]

lemma mem_stepsOf (ht : t ∈ tr) (hlab : t.label = .steps i event) : t ∈ stepsOf i tr := by
  simp [stepsOf, ht, hlab, Label.isStepOf]

/-- `trace a steps b`: a call that began as `a` is at `b` after the steps. -/
structure Traces (trace : κ → List (Transition (Config ι σ κ) (Label ι κ ℓ)) → κ → Prop)
    (past : List (Transition (Config ι σ κ) (Label ι κ ℓ))) (c : Config ι σ κ) : Prop where
  idle : ∀ {i}, c.status i = .idle → stepsOf i past = []
  running : ∀ {i b}, c.status i = .running b → ∃ a, (∃ t ∈ past, t.label = .begins i a) ∧
    trace a (stepsOf i past) b

variable {trace : κ → List (Transition (Config ι σ κ) (Label ι κ ℓ)) → κ → Prop}

section

variable (hrequest : ∀ {a}, request a → trace a [] a)
  (hnext : ∀ {t a steps b i event b'}, trace a steps b → t.label = .steps i event →
    next t.src.shared b event t.dst.shared (some b') → trace a (steps ++ [t]) b')
include hrequest hnext

lemma Traces.step (hstep : Step request next t.src t.label t.dst) (h : Traces trace past t.src) :
    Traces trace (past ++ [t]) t.dst := by
  -- Apart from the call that the label is about, nothing changes.
  obtain ⟨i, status, hothers, hst, hidle, hrunning⟩ : ∃ i status,
      (∀ j ≠ i, ∀ event, t.label ≠ .steps j event) ∧
      t.dst.status = update t.src.status i status ∧ status ≠ .idle ∧
      ∀ b, status = .running b → ∃ a, (∃ u ∈ past ++ [t], u.label = .begins i a) ∧
        trace a (stepsOf i (past ++ [t])) b := by
    rcases hstep.cases with ⟨i, a, hlab, hidle, hrequest', -, hst⟩ |
      ⟨i, a, event, rest, hlab, hrunning, hnext', hst⟩
    · refine ⟨i, _, fun j _ event => by simp [hlab], hst, nofun, ?_⟩
      rintro _ ⟨⟩
      rw [stepsOf_append_of_ne (by simp [hlab]), h.idle hidle]
      exact ⟨a, ⟨t, by simp, hlab⟩, hrequest hrequest'⟩
    · refine ⟨i, _, fun j hne event => by simp [hlab, hne.symm], hst, by cases rest <;> nofun, ?_⟩
      intro b hb
      obtain ⟨a', ⟨u, hu, hbeg⟩, htr⟩ := h.running hrunning
      rw [stepsOf_append_of_step hlab]
      exact ⟨a', ⟨u, by simp [hu], hbeg⟩,
        hnext htr hlab (Status.after_eq_running_iff.1 hb ▸ hnext')⟩
  refine ⟨fun {j} hj => ?_, fun {j b} hj => ?_⟩
  · rw [hst] at hj
    by_cases heq : j = i
    · subst heq
      exact absurd ((update_self ..).symm.trans hj) hidle
    · rw [update_of_ne heq] at hj
      rw [stepsOf_append_of_ne (hothers j heq)]
      exact h.idle hj
  · rw [hst] at hj
    rcases running_update hj with ⟨rfl, hb⟩ | ⟨hne, hb⟩
    · exact hrunning b hb
    · obtain ⟨a, ⟨u, hu, hbeg⟩, htr⟩ := h.running hb
      rw [stepsOf_append_of_ne (hothers j hne)]
      exact ⟨a, ⟨u, by simp [hu], hbeg⟩, htr⟩

lemma exists_trace_of_steps (h : Run (Step request next) ⟨s, fun _ => .idle⟩ tr c) (hpre : pre ++ [t] <+: tr)
    (hlab : t.label = .steps i event) :
    ∃ a b rest, (∃ u ∈ pre, u.label = .begins i a) ∧ trace a (stepsOf i pre) b ∧
      t.src.status i = .running b ∧ next t.src.shared b event t.dst.shared rest ∧
      t.dst.status = update t.src.status i (.after rest) := by
  obtain ⟨b, rest, hrun, hrunning, hnext', hst⟩ := exists_running_of_steps h hpre hlab
  have htraces : Traces trace pre t.src :=
    hrun.history ⟨fun _ => rfl, fun hi => (nomatch hi)⟩ fun _ _ _ hstep hpast =>
      hpast.step hrequest hnext hstep
  obtain ⟨a, hbeg, htr⟩ := htraces.running hrunning
  exact ⟨a, b, rest, hbeg, htr, hrunning, hnext', hst⟩

end

/-- The same for calls of one kind, which have a trace of their own. -/
lemma exists_trace_of_kind {μ ρ : Type*} (kind : μ → κ) (first : ρ → μ)
    (trace : ρ → List (Transition (Config ι σ κ) (Label ι κ ℓ)) → μ → Prop)
    (outcome : σ → μ → ℓ → σ → Option μ → Prop)
    (hkind : ∀ {s b l s' rest}, next s (kind b) l s' rest →
      ∃ rest', rest = rest'.map kind ∧ outcome s b l s' rest') (hnil : ∀ a, trace a [] (first a))
    (hnext : ∀ {t a steps b i event b'}, trace a steps b → t.label = .steps i event →
      outcome t.src.shared b event t.dst.shared (some b') → trace a (steps ++ [t]) b')
    (hbegins : ∀ t ∈ tr, ∀ i a, t.label = .begins i a → ∃ r, a = kind (first r))
    (h : Run (Step request next) ⟨s, fun _ => .idle⟩ tr c) (hpre : pre ++ [t] <+: tr)
    (hlab : t.label = .steps i event) :
    ∃ a b rest, request (kind (first a)) ∧ (∃ u ∈ pre, u.label = .begins i (kind (first a))) ∧
      trace a (stepsOf i pre) b ∧ outcome t.src.shared b event t.dst.shared rest := by
  let traces (a : κ) (steps : List (Transition (Config ι σ κ) (Label ι κ ℓ))) (b : κ) : Prop :=
    request a ∧ ∀ r, a = kind (first r) → ∃ b', b = kind b' ∧ trace r steps b'
  have hrequest : ∀ {a}, request a → traces a [] a := by
    refine fun ha => ⟨ha, ?_⟩
    rintro r rfl
    exact ⟨first r, rfl, hnil r⟩
  have hnexts : ∀ {t a steps b i event b'}, traces a steps b → t.label = .steps i event →
      next t.src.shared b event t.dst.shared (some b') → traces a (steps ++ [t]) b' := by
    rintro t a steps b i event b' ⟨ha, htr⟩ hlab hstep
    refine ⟨ha, fun r har => ?_⟩
    obtain ⟨m, rfl, hm⟩ := htr r har
    obtain ⟨rest, hrest, hout⟩ := hkind hstep
    obtain ⟨m', rfl, rfl⟩ := Option.map_eq_some_iff.1 hrest.symm
    exact ⟨m', rfl, hnext hm hlab hout⟩
  obtain ⟨a, b, rest, ⟨u, hu, hbeg⟩, ⟨ha, htr⟩, -, hstep, -⟩ :=
    exists_trace_of_steps hrequest hnexts h hpre hlab
  obtain ⟨r, rfl⟩ := hbegins u (hpre.subset (List.mem_append_left _ hu)) i a hbeg
  obtain ⟨m, rfl, hm⟩ := htr r rfl
  obtain ⟨rest', -, hout⟩ := hkind hstep
  exact ⟨r, m, rest', ha, ⟨u, hu, hbeg⟩, hm, hout⟩

/-! ### Schedules -/

/-- What is to happen next: a request arrives, or a call goes on with the given input. -/
inductive Action (ι κ α : Type*) where
  | begins (i : ι) (call : κ)
  | steps (i : ι) (input : α)

def Action.request? {ι κ α : Type*} : Action ι κ α → Option κ
  | .begins _ call => some call
  | .steps _ _ => none

variable (advance : α → σ → κ → ℓ × σ × Option κ)

/-- The transition of an action, if the call can make it. -/
def perform (c : Config ι σ κ) : Action ι κ α →
    Option (Transition (Config ι σ κ) (Label ι κ (α × ℓ)))
  | .begins i call =>
    match c.status i with
    | .idle => some ⟨c, .begins i call, ⟨c.shared, update c.status i (.running call)⟩⟩
    | _ => none
  | .steps i input =>
    match c.status i with
    | .running call => some ⟨c, .steps i (input, (advance input c.shared call).1),
        ⟨(advance input c.shared call).2.1,
          update c.status i (.after (advance input c.shared call).2.2)⟩⟩
    | _ => none

/-- The transitions of a list of actions, and where they lead. -/
def performAll (c : Config ι σ κ) : List (Action ι κ α) →
    Option (List (Transition (Config ι σ κ) (Label ι κ (α × ℓ))) × Config ι σ κ)
  | [] => some ([], c)
  | action :: actions =>
    (perform advance c action).bind fun t =>
      (performAll t.dst actions).map fun rest => (t :: rest.1, rest.2)

variable {advance} {t : Transition (Config ι σ κ) (Label ι κ (α × ℓ))}

lemma step_perform {action : Action ι κ α}
    (hrequest : ∀ call, action.request? = some call → request call)
    (h : perform advance c action = some t) : t.src = c ∧
      Step request (fun s call l s' rest => advance l.1 s call = (l.2, s', rest)) c t.label t.dst := by
  cases action with
  | begins i call =>
    simp only [perform] at h
    split at h
    · next hidle =>
      cases h
      exact ⟨rfl, .begins hidle (hrequest call rfl)⟩
    · cases h
  | steps i input =>
    simp only [perform] at h
    split at h
    · next call hrunning =>
      cases h
      exact ⟨rfl, .steps hrunning rfl⟩
    · cases h

variable {actions : List (Action ι κ α)} {tr : List (Transition (Config ι σ κ) (Label ι κ (α × ℓ)))}

variable (h : performAll advance c actions = some (tr, c'))

include h

lemma run_performAll (hrequest : (actions.filterMap Action.request?).Forall request) :
    Run (Step request fun s call l s' rest => advance l.1 s call = (l.2, s', rest)) c tr c' := by
  induction actions generalizing c tr with
  | nil =>
    cases h
    exact .refl _
  | cons action actions ih =>
    obtain ⟨t, ht, h⟩ := bind_eq_some_iff.1 h
    obtain ⟨⟨rest, c''⟩, hrest, heq⟩ := map_eq_some_iff.1 h
    cases heq
    simp only [forall_iff_forall_mem, mem_filterMap, mem_cons] at hrequest ih
    obtain ⟨hsrc, hstep⟩ := step_perform (fun call heq => hrequest call ⟨action, .inl rfl, heq⟩) ht
    refine Run.cons_iff.2 ⟨hsrc, hstep, ih hrest ?_⟩
    rintro call ⟨action', hmem, heq⟩
    exact hrequest call ⟨action', .inr hmem, heq⟩

lemma mem_of_performAll (ht : t ∈ tr) {input : α}
    (hlab : t.label = .steps i (input, event)) : Action.steps i input ∈ actions := by
  induction actions generalizing c tr with
  | nil =>
    cases h
    cases ht
  | cons action actions ih =>
    obtain ⟨t', ht', h⟩ := bind_eq_some_iff.1 h
    obtain ⟨⟨rest, c''⟩, hrest, heq⟩ := map_eq_some_iff.1 h
    cases heq
    rcases mem_cons.1 ht with rfl | ht
    · refine mem_cons.2 (.inl ?_)
      cases action with
      | begins j call =>
        simp only [perform] at ht'
        split at ht'
        · cases ht'
          cases hlab
        · cases ht'
      | steps j input' =>
        simp only [perform] at ht'
        split at ht'
        · cases ht'
          cases hlab
          rfl
        · cases ht'
    · exact mem_cons_of_mem _ (ih hrest ht)

end Interleaving
