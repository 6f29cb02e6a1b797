import BranchingInterview.Proofs.Calls
import BranchingInterview.Proofs.Evaluation
import BranchingInterview.Proofs.Validation
import BranchingInterview.Router.Stack

/-!
The two screen policies side by side. A host makes the same calls to a script under each of them;
the calls go alike until one of them ends at a missing screen, which a valid interview never does.
-/

namespace BranchingInterview

variable {σ : Type}

def Script.under (script : Script) (policy : ScreenPolicy) : Script :=
  { script with settings := { script.settings with screenPolicy := policy } }

def Reply.MissesScreen (reply : Reply) : Prop :=
  ∃ id, reply.result = .error (.missingScreen id)

namespace Plan

/-- A plan ends at a missing screen in a place where another plan goes on, or is that plan. -/
def IsCutOf (plan full : Plan) : Prop :=
  plan = full ∨
    (∃ id, plan.failure = some (.missingScreen id)) ∧ plan.commands <+: full.commands

theorem IsCutOf.refl (plan : Plan) : plan.IsCutOf plan := Or.inl rfl

theorem IsCutOf.andThen {first full next rest : Plan} (hfirst : first.IsCutOf full)
    (hnext : next.IsCutOf rest) : (first.andThen next).IsCutOf (full.andThen rest) := by
  rcases hfirst with rfl | ⟨⟨id, hmissing⟩, hprefix⟩
  · cases hfailure : first.failure with
    | some error =>
        simp only [Plan.andThen, hfailure]
        exact IsCutOf.refl first
    | none =>
        simp only [Plan.andThen, hfailure]
        rcases hnext with rfl | ⟨hmissing, hprefix⟩
        · exact IsCutOf.refl _
        · exact Or.inr ⟨hmissing, (List.prefix_append_right_inj _).2 hprefix⟩
  · have hcut : first.andThen next = first := by
      rw [Plan.andThen, hmissing]
    rw [hcut]
    refine Or.inr ⟨⟨id, hmissing⟩, hprefix.trans ?_⟩
    rw [Plan.andThen]
    split
    · exact List.prefix_rfl
    · exact List.prefix_append _ _

end Plan

theorem Router.prefix_sendAll_recording (router : Router σ) (commands : List Command) (state : σ)
    (given : List Command) : given <+: (router.recording.sendAll commands (state, given)).2.2 := by
  rcases router.accepted_or_rejected commands state with ⟨after, haccepted⟩ |
    ⟨before, command, rest, reached, reason, after, rfl, hbefore, hrejects⟩
  · rw [sendAll_recording_of_accepted haccepted]
    exact List.prefix_append given commands
  · rw [sendAll_recording_of_rejected hbefore hrejects, List.append_assoc]
    exact List.prefix_append given _

/-- A plan that is cut off sends what the whole plan sends first, unless the router stops both. -/
theorem Plan.IsCutOf.reply {plan full : Plan} (hcut : plan.IsCutOf full) (router : Router σ)
    (state : σ) :
    plan.reply router state = full.reply router state ∨
      (plan.reply router state).1.MissesScreen ∧
        (plan.reply router state).1.commands <+: (full.reply router state).1.commands := by
  rcases hcut with rfl | ⟨⟨id, hmissing⟩, more, hmore⟩
  · exact Or.inl rfl
  · have hfull := Router.sendAll_append router.recording plan.commands more (state, [])
    rw [hmore] at hfull
    rcases hsent : router.recording.sendAll plan.commands (state, []) with
      ⟨reply | reply, after, sent⟩
    · left
      rw [hsent] at hfull
      simp only [Plan.reply, Plan.execute, hsent, hfull]
    · right
      rw [hsent] at hfull
      constructor
      · refine ⟨id, ?_⟩
        simp only [Plan.reply, Plan.execute, hsent, Plan.verdict, hmissing]
      · change (plan.execute router.recording (state, [])).2.2 <+:
          (full.execute router.recording (state, [])).2.2
        rw [Plan.snd_execute, Plan.snd_execute, hsent, hfull]
        exact router.prefix_sendAll_recording more after sent

theorem pushPlan_isCutOf (screens : List Screen) (ids : List String) :
    (pushPlan screens .strict ids).IsCutOf (pushPlan screens .lenient ids) := by
  cases hmissing : firstMissing? screens ids with
  | none =>
      left
      simp only [pushPlan, resolution, hmissing]
  | some id =>
      right
      simp only [pushPlan, resolution, hmissing]
      exact ⟨⟨id, rfl⟩, List.nil_prefix⟩

theorem firstMissing?_eq_none_iff {screens : List Screen} {ids : List String} :
    firstMissing? screens ids = none ↔ ∀ id ∈ ids, (findScreen? screens id).isSome := by
  simp only [firstMissing?, List.find?_eq_none, Bool.not_eq_true, Option.isNone_eq_false_iff]

theorem pushPlan_eq_of_hasScreen {interview : Interview} {ids : List String}
    (hscreens : ∀ id ∈ ids, interview.hasScreen id) :
    pushPlan interview.screens .strict ids = pushPlan interview.screens .lenient ids := by
  have hmissing : firstMissing? interview.screens ids = none := by
    rw [firstMissing?_eq_none_iff]
    intro id hid
    rw [isSome_findScreen?, hscreens id hid]
  simp only [pushPlan, resolution, hmissing]

theorem Action.plan_eq_of_hasScreen {interview : Interview} {action : Action}
    (htargets : ∀ id ∈ action.targets, interview.hasScreen id) :
    action.plan interview.screens .strict = action.plan interview.screens .lenient := by
  cases action with
  | push ids => exact pushPlan_eq_of_hasScreen htargets
  | _ => rfl

theorem Action.plan_isCutOf (screens : List Screen) (action : Action) :
    (action.plan screens .strict).IsCutOf (action.plan screens .lenient) := by
  cases action with
  | push ids => exact pushPlan_isCutOf screens ids
  | _ => exact Plan.IsCutOf.refl _

/-- A plan may end at a text that is no date, but not at a missing screen. -/
def Plan.FindsScreens (plan : Plan) : Prop :=
  ∀ id, plan.failure ≠ some (.missingScreen id)

/-- An error that is not the router's is the one that the plan ends with. -/
theorem Plan.failure_of_execute {plan : Plan} {router : Router σ} {state : σ} {error : ScriptError}
    (hresult : (plan.execute router state).1 = .error error)
    (herror : ∀ reason, error ≠ .rejected reason) : plan.failure = some error := by
  rw [execute, verdict] at hresult
  rcases hsent : router.sendAll plan.commands state with ⟨reason | _, after⟩
  · rw [hsent] at hresult
    exact absurd (Except.error.inj hresult).symm (herror reason)
  · rw [hsent] at hresult
    cases hfailure : plan.failure with
    | none => simp [hfailure] at hresult
    | some reason => simpa [hfailure] using hresult

theorem Plan.FindsScreens.andThen {first next : Plan} (hfirst : first.FindsScreens)
    (hnext : next.FindsScreens) : (first.andThen next).FindsScreens := by
  rw [Plan.andThen]
  split
  · exact hfirst
  · exact hnext

theorem findsScreens_lenient (screens : List Screen) (action : Action) :
    (action.plan screens .lenient).FindsScreens := by
  intro id hfailure
  cases action <;> cases hfailure

namespace Script

variable (script : Script)

theorem candidatePlan_isCutOf (responses : Responses) (candidate : Candidate) :
    ((script.under .strict).candidatePlan responses candidate).IsCutOf
      ((script.under .lenient).candidatePlan responses candidate) := by
  have hguard : (script.under .strict).guard responses candidate =
      (script.under .lenient).guard responses candidate := rfl
  rw [candidatePlan, candidatePlan, hguard]
  rcases (script.under .lenient).guard responses candidate with error | _ | _
  · exact Plan.IsCutOf.refl _
  · exact Plan.IsCutOf.refl _
  · exact Action.plan_isCutOf script.interview.screens candidate.action

theorem callPlan_isCutOf (call : Call σ) :
    ((script.under .strict).callPlan call).IsCutOf ((script.under .lenient).callPlan call) := by
  cases call with
  | setup => exact pushPlan_isCutOf script.interview.screens script.interview.startingIds
  | process screen responses =>
      rw [callPlan, callPlan, processPlan, processPlan, turnPlan, turnPlan]
      have hactions : (script.under .strict).actionsFor screen.id =
          (script.under .lenient).actionsFor screen.id := rfl
      rw [hactions]
      induction (script.under .lenient).actionsFor screen.id with
      | nil => exact Plan.IsCutOf.refl _
      | cons candidate candidates ih =>
          exact (script.candidatePlan_isCutOf responses candidate).andThen ih
  | host change => exact Plan.IsCutOf.refl _

theorem findsScreens_lenient_callPlan (call : Call σ) :
    ((script.under .lenient).callPlan call).FindsScreens := by
  cases call with
  | setup => exact findsScreens_lenient script.interview.screens (.push script.interview.startingIds)
  | process screen responses =>
      rw [callPlan, processPlan, turnPlan]
      induction (script.under .lenient).actionsFor screen.id with
      | nil =>
          intro id hfailure
          cases hfailure
      | cons candidate candidates ih =>
          refine Plan.FindsScreens.andThen ?_ ih
          rw [candidatePlan]
          rcases hguard : (script.under .lenient).guard responses candidate with error | _ | _
          · intro id hfailure
            obtain ⟨text, rfl⟩ := Comparison.exists_of_evaluate_eq_error hguard
            cases hfailure
          · intro id hfailure
            cases hfailure
          · exact findsScreens_lenient script.interview.screens candidate.action
  | host change =>
      intro id hfailure
      cases hfailure

theorem reply_eq_or_prefix (router : Router σ) (state : σ) (call : Call σ) :
    (script.under .strict).reply router state call =
        (script.under .lenient).reply router state call ∨
      ((script.under .strict).reply router state call).1.MissesScreen ∧
        ((script.under .strict).reply router state call).1.commands <+:
          ((script.under .lenient).reply router state call).1.commands := by
  rw [reply_eq, reply_eq]
  exact (script.callPlan_isCutOf call).reply router (call.enter state)

theorem replies_eq_of_not_missesScreen (router : Router σ) (calls : List (Call σ)) (state : σ)
    (hfound : ∀ reply ∈ ((script.under .strict).replies router calls state).1,
      ¬reply.MissesScreen) :
    (script.under .strict).replies router calls state =
      (script.under .lenient).replies router calls state := by
  induction calls generalizing state with
  | nil => rfl
  | cons call calls ih =>
      rw [replies, replies]
      have hreply := hfound ((script.under .strict).reply router state call).1 List.mem_cons_self
      have heq := (script.reply_eq_or_prefix router state call).resolve_right
        fun hcut => hreply hcut.1
      have hrest := ih ((script.under .strict).reply router state call).2
        fun reply hmem => hfound reply (List.mem_cons_of_mem _ hmem)
      simp only
      rw [hrest, heq]

theorem not_missesScreen_lenient (router : Router σ) (state : σ) (call : Call σ) :
    ¬((script.under .lenient).reply router state call).1.MissesScreen := by
  rintro ⟨id, hresult⟩
  rw [reply_eq] at hresult
  exact script.findsScreens_lenient_callPlan call id (Plan.failure_of_execute hresult (by simp))

theorem callPlan_eq_of_validate (hvalid : script.interview.validate = .ok ()) (call : Call σ) :
    (script.under .strict).callPlan call = (script.under .lenient).callPlan call := by
  cases call with
  | setup =>
      exact pushPlan_eq_of_hasScreen (Interview.validate_eq_ok_iff.1 hvalid).1
  | process screen responses =>
      rw [callPlan, callPlan, processPlan, processPlan, turnPlan, turnPlan]
      congr 1
      refine List.map_congr_left fun candidate hmem => ?_
      have hguard : (script.under .strict).guard responses candidate =
          (script.under .lenient).guard responses candidate := rfl
      rw [candidatePlan, candidatePlan, hguard]
      rcases (script.under .lenient).guard responses candidate with error | _ | _
      · rfl
      · rfl
      · have hcandidate := Interview.validateCandidate_of_mem_actionsFor hvalid hmem
        have htargets := (Interview.validateCandidate_eq_ok_iff.1 hcandidate).2
        exact Action.plan_eq_of_hasScreen htargets
  | host change => rfl

/-- Under the strict policy a script goes on as under the lenient one until a call ends at a missing
screen. That call has sent part of what the lenient script sends, and a valid interview has none. -/
theorem replies_strict_lenient (router : Router σ) (state : σ) :
    (∀ calls,
        (∀ reply ∈ ((script.under .strict).replies router calls state).1, ¬reply.MissesScreen) →
        (script.under .strict).replies router calls state =
          (script.under .lenient).replies router calls state) ∧
      (∀ before call,
        (∀ reply ∈ ((script.under .strict).replies router before state).1, ¬reply.MissesScreen) →
        ((script.under .strict).reply router
          ((script.under .strict).replies router before state).2 call).1.MissesScreen →
        ((script.under .strict).reply router
            ((script.under .strict).replies router before state).2 call).1.commands <+:
          ((script.under .lenient).reply router
            ((script.under .lenient).replies router before state).2 call).1.commands) ∧
      (script.interview.validate = .ok () → ∀ calls,
        (∀ reply ∈ ((script.under .strict).replies router calls state).1, ¬reply.MissesScreen) ∧
          (script.under .strict).replies router calls state =
            (script.under .lenient).replies router calls state) := by
  refine ⟨fun calls => script.replies_eq_of_not_missesScreen router calls state, ?_, ?_⟩
  · intro before call hbefore hmisses
    rw [← script.replies_eq_of_not_missesScreen router before state hbefore]
    rcases script.reply_eq_or_prefix router
      ((script.under .strict).replies router before state).2 call with heq | ⟨_, hprefix⟩
    · exact heq ▸ List.prefix_rfl
    · exact hprefix
  · intro hvalid calls
    have hfound : ∀ reply ∈ ((script.under .strict).replies router calls state).1,
        ¬reply.MissesScreen := by
      intro reply hmem
      obtain ⟨call, reached, rfl⟩ := exists_of_mem_replies hmem
      have hlenient := script.not_missesScreen_lenient router reached call
      rwa [reply_eq, ← script.callPlan_eq_of_validate hvalid call, ← reply_eq] at hlenient
    exact ⟨hfound, script.replies_eq_of_not_missesScreen router calls state hfound⟩

theorem reply_strict_detour :
    let start : StackRouter := ((detour.under .strict).replies StackRouter.route [.setup] {}).2
    let strict := ((detour.under .strict).reply StackRouter.route start (.process { id := "a" } {})).1
    let lenient :=
      ((detour.under .lenient).reply StackRouter.route
        ((detour.under .lenient).replies StackRouter.route [.setup] {}).2
          (.process { id := "a" } {})).1
    strict.commands = [.milestone "begun"] ∧ strict.MissesScreen ∧
      strict.commands <+: lenient.commands := by
  intro start strict lenient
  have hmisses : strict.MissesScreen := ⟨"x", by rfl⟩
  have hsetup : ∀ reply ∈ ((detour.under .strict).replies StackRouter.route [.setup] {}).1,
      ¬reply.MissesScreen := by
    intro reply hmem
    cases List.mem_singleton.1 hmem
    rintro ⟨id, hresult⟩
    cases hresult
  exact ⟨by rfl, hmisses, (detour.replies_strict_lenient StackRouter.route {}).2.1 [.setup]
    (.process { id := "a" } {}) hsetup hmisses⟩

end Script

end BranchingInterview
