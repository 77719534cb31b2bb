import AiRetrieval.Library.Histories
import AiRetrieval.Spec.Admission

/-! Admission is exclusive: along any run each envelope is dispatched at most once, with its own
payload and to the path it is resolved to, and a rejected one not at all. -/

namespace AiRetrieval

open CallLog

/-- The calls of the router to what it is constructed with. -/
inductive AdmissionCall where
  | bind (reference : ConfigurationReference)
  | clock
  | identifier
  | interactive (request : InteractiveRequest) (context : AdmittedContext)
  | bulk (job : BatchJob) (context : AdmittedContext)

inductive AdmittedWork where
  | interactive (request : InteractiveRequest)
  | bulk (job : BatchJob)

namespace AdmissionCall

/-- What a call dispatches. -/
def work : AdmissionCall → Option AdmittedWork
  | .interactive request _ => some (.interactive request)
  | .bulk job _ => some (.bulk job)
  | _ => none

def context : AdmissionCall → Option AdmittedContext
  | .interactive _ context => some context
  | .bulk _ context => some context
  | _ => none

end AdmissionCall

namespace AdmissionEnvelope

def workOn (envelope : AdmissionEnvelope) : ExecutionPath → Option AdmittedWork
  | .interactive => envelope.val.interactive.map .interactive
  | .bulk => envelope.val.bulk.map .bulk

def work (envelope : AdmissionEnvelope) : Option AdmittedWork :=
  (discriminatePath envelope).toOption.bind envelope.workOn

end AdmissionEnvelope

/-- The same answers, with every call written down. -/
def AdmissionPorts.recorded {σ α : Type} (ports : AdmissionPorts σ α) :
    AdmissionPorts (CallLog AdmissionCall σ) α where
  bind reference := logged (.bind reference) (ports.bind reference)
  clock := logged .clock ports.clock
  identifier := logged .identifier ports.identifier
  interactive request context :=
    logged (.interactive request context) (ports.interactive request context)
  bulk job context := logged (.bulk job context) (ports.bulk job context)

section Routing

variable {σ α β γ : Type} {ports : AdmissionPorts σ α} {envelope : AdmissionEnvelope}

/-- Nothing is dispatched, and what is returned satisfies `S`. -/
def Silent (S : β → Prop) (calls : List AdmissionCall) (r : Except PyError β) : Prop :=
  (∀ call ∈ calls, call.work = none) ∧ ∀ a, r = .ok a → S a

theorem silent_port {call : AdmissionCall} {y : Program PyError σ β} (h : call.work = none) :
    Logs (Silent fun _ => True) (logged call y) y :=
  logs_logged fun _ => ⟨fun _ hcall => List.mem_singleton.1 hcall ▸ h, fun _ _ => trivial⟩

theorem silent_lift {S : β → Prop} {r : Except PyError β} (h : ∀ a, r = .ok a → S a) :
    Logs (Silent S) (liftM r : Program PyError (CallLog AdmissionCall σ) β)
      (liftM r : Program PyError σ β) :=
  logs_lift ⟨fun _ hcall => (by cases hcall), h⟩

theorem silent_bind {S : β → Prop} {S' : γ → Prop}
    {x : Program PyError (CallLog AdmissionCall σ) β} {y : Program PyError σ β}
    {f : β → Program PyError (CallLog AdmissionCall σ) γ} {g : β → Program PyError σ γ}
    (hx : Logs (Silent S) x y) (hf : ∀ a, S a → Logs (Silent S') (f a) (g a)) :
    Logs (Silent S') (x >>= f) (y >>= g) := by
  refine logs_bind hx (fun a ⟨calls, hcalls⟩ => hf a (hcalls.2 a rfl)) ?_ ?_
  · intro calls e h
    exact ⟨h.1, fun _ hr => by cases hr⟩
  · intro calls later a r h hlater
    refine ⟨fun call hcall => ?_, hlater.2⟩
    rcases List.mem_append.1 hcall with hcall | hcall
    · exact h.1 call hcall
    · exact hlater.1 call hcall

structure CreatedFor (path : ExecutionPath) (configuration : ExecutionConfiguration)
    (deadline : Option TimeDelta) (context : AdmittedContext) : Prop where
  path : context.path = path
  configuration : context.configuration = configuration
  deadline : context.timing.val.deadline.isSome = deadline.isSome

theorem deadlineFrom_isSome {acceptedAt : DateTime} {deadline : Option TimeDelta}
    {found : Option DateTime} (h : deadlineFrom acceptedAt deadline = .ok found) :
    found.isSome = deadline.isSome := by
  unfold deadlineFrom at h
  cases deadline with
  | none =>
    cases h
    rfl
  | some seconds =>
    change some <$> acceptedAt.plus seconds = .ok found at h
    rcases hplus : acceptedAt.plus seconds with e | instant
    · rw [hplus] at h
      cases h
    · rw [hplus] at h
      cases h
      rfl

theorem createContext_logs (path : ExecutionPath) (configuration : ExecutionConfiguration)
    (deadline : Option TimeDelta) (cancellationTimeout : TimeDelta) :
    Logs (Silent (CreatedFor path configuration deadline))
      (createContext ports.recorded path configuration deadline cancellationTimeout)
      (createContext ports path configuration deadline cancellationTimeout) := by
  unfold createContext
  refine silent_bind (silent_port rfl) fun acceptedAt _ => ?_
  refine silent_bind (silent_lift fun _ => deadlineFrom_isSome) fun found hfound => ?_
  refine silent_bind (silent_port rfl) fun identifier _ => ?_
  refine silent_bind (S := fun _ => True) (silent_lift fun _ _ => trivial) fun executionId _ => ?_
  refine silent_bind (silent_port rfl) fun correlationId _ => ?_
  refine silent_bind (S := fun _ => True) (silent_lift fun _ _ => trivial) fun _ _ => ?_
  refine silent_bind (silent_lift fun _ => Checked.make_eq_ok.1) fun timing htiming => ?_
  refine silent_bind (silent_port rfl) fun token _ => ?_
  refine silent_bind (S := fun _ => True) (silent_lift fun _ _ => trivial) fun cancellation _ => ?_
  refine logs_pure ⟨fun _ hcall => (by cases hcall), fun context hcontext => ?_⟩
  cases hcontext
  refine ⟨rfl, rfl, ?_⟩
  rw [htiming]
  exact hfound

theorem discriminatePath_payload {path : ExecutionPath} (h : discriminatePath envelope = .ok path) :
    ∃ work, envelope.workOn path = some work := by
  unfold discriminatePath at h
  unfold AdmissionEnvelope.workOn
  rcases hinteractive : envelope.val.interactive with _ | request <;>
    rcases hbulk : envelope.val.bulk with _ | job <;>
    rw [hinteractive, hbulk] at h
  · cases h
  · simp only [Option.isSome] at h
    split at h
    · cases h
    · cases h
      exact ⟨_, rfl⟩
  · simp only [Option.isSome] at h
    split at h
    · cases h
    · cases h
      exact ⟨_, rfl⟩
  · cases path
    · exact ⟨_, rfl⟩
    · exact ⟨_, rfl⟩

theorem work_of_path {path : ExecutionPath} (h : discriminatePath envelope = .ok path) :
    envelope.work = envelope.workOn path := by
  unfold AdmissionEnvelope.work
  rw [h]
  rfl

theorem dispatch_logs {path : ExecutionPath} {work : AdmittedWork} (context : AdmittedContext)
    (h : envelope.workOn path = some work) :
    Logs (fun calls _ => ∃ call : AdmissionCall, calls = [call] ∧ call.work = some work ∧
        call.context = some context)
      (AdmissionRouter.dispatch ports.recorded envelope path context)
      (AdmissionRouter.dispatch ports envelope path context) := by
  unfold AdmissionEnvelope.workOn at h
  unfold AdmissionRouter.dispatch
  cases path with
  | interactive =>
    obtain ⟨request, hrequest, rfl⟩ := Option.map_eq_some_iff.1 h
    rw [hrequest]
    exact logs_logged fun _ => ⟨_, rfl, rfl, rfl⟩
  | bulk =>
    obtain ⟨job, hjob, rfl⟩ := Option.map_eq_some_iff.1 h
    rw [hjob]
    exact logs_logged fun _ => ⟨_, rfl, rfl, rfl⟩

/-- How an envelope is answered: one that is not resolved calls nothing; a payload is dispatched
at most once, and not where the decision is a rejection; an accepted one was dispatched last, in
the context of the decision, which is of the resolved path and has a deadline only where that
path is interactive. -/
structure AdmittedOnce (envelope : AdmissionEnvelope) (calls : List AdmissionCall)
    (reply : Except PyError (AdmissionDecision α)) : Prop where
  unresolved : ∀ failure, discriminatePath envelope = .error failure →
    calls = [] ∧ reply = .ok (AdmissionRouter.rejected failure)
  dispatched : calls.filterMap AdmissionCall.work = [] ∨
    ∃ work, envelope.work = some work ∧ calls.filterMap AdmissionCall.work = [work]
  rejected : ∀ decision, reply = .ok decision → decision.val.status ≠ .accepted →
    calls.filterMap AdmissionCall.work = []
  accepted : ∀ decision, reply = .ok decision → decision.val.status = .accepted →
    ∃ earlier call context path, calls = earlier ++ [call] ∧ call.work = envelope.work ∧
      call.context = some context ∧ discriminatePath envelope = .ok path ∧
      decision.val.path = some path ∧ decision.val.context = some context ∧
      context.path = path ∧ (context.timing.val.deadline.isSome → path = .interactive)

theorem filterMap_work_eq_nil {calls : List AdmissionCall} (h : ∀ call ∈ calls, call.work = none) :
    calls.filterMap AdmissionCall.work = [] :=
  List.filterMap_eq_nil_iff.2 h

theorem admittedOnce_of_silent {path : ExecutionPath} {calls : List AdmissionCall}
    {reply : Except PyError (AdmissionDecision α)} (hpath : discriminatePath envelope = .ok path)
    (hsilent : ∀ call ∈ calls, call.work = none)
    (hreply : ∀ decision, reply = .ok decision → decision.val.status ≠ .accepted) :
    AdmittedOnce envelope calls reply where
  unresolved := by
    intro failure hfailure
    rw [hpath] at hfailure
    cases hfailure
  dispatched := .inl (filterMap_work_eq_nil hsilent)
  rejected := fun _ _ _ => filterMap_work_eq_nil hsilent
  accepted := fun decision h haccepted => absurd haccepted (hreply decision h)

theorem admittedOnce_bind {S : β → Prop} {path : ExecutionPath}
    {x : Program PyError (CallLog AdmissionCall σ) β} {y : Program PyError σ β}
    {f : β → Program PyError (CallLog AdmissionCall σ) (AdmissionDecision α)}
    {g : β → Program PyError σ (AdmissionDecision α)}
    (hpath : discriminatePath envelope = .ok path) (hx : Logs (Silent S) x y)
    (hf : ∀ a, S a → Logs (AdmittedOnce envelope) (f a) (g a)) :
    Logs (AdmittedOnce envelope) (x >>= f) (y >>= g) := by
  refine logs_bind hx (fun a ⟨calls, hcalls⟩ => hf a (hcalls.2 a rfl)) ?_ ?_
  · intro calls e hsilent
    exact admittedOnce_of_silent hpath hsilent.1 fun decision h => by cases h
  · intro calls later a reply hsilent honce
    have hworks : (calls ++ later).filterMap AdmissionCall.work =
        later.filterMap AdmissionCall.work := by
      rw [List.filterMap_append, filterMap_work_eq_nil hsilent.1, List.nil_append]
    refine ⟨fun failure hfailure => ?_, ?_, fun decision h hstatus => ?_,
      fun decision h hstatus => ?_⟩
    · rw [hpath] at hfailure
      cases hfailure
    · rw [hworks]
      exact honce.dispatched
    · rw [hworks]
      exact honce.rejected decision h hstatus
    · obtain ⟨earlier, call, context, other, rfl, hlast⟩ := honce.accepted decision h hstatus
      exact ⟨calls ++ earlier, call, context, other, (List.append_assoc ..).symm, hlast⟩

theorem admittedOnce_of_dispatch {path : ExecutionPath} {work : AdmittedWork}
    {context : AdmittedContext} {call : AdmissionCall}
    {reply : Except PyError (AdmissionDecision α)} (hpath : discriminatePath envelope = .ok path)
    (hwork : envelope.workOn path = some work) (hcall : call.work = some work)
    (hin : call.context = some context)
    (hcontext : context.path = path ∧
      (context.timing.val.deadline.isSome → path = .interactive))
    (hreply : ∀ decision, reply = .ok decision → decision.val.status = .accepted ∧
      decision.val.path = some path ∧ decision.val.context = some context) :
    AdmittedOnce envelope [call] reply := by
  have hresolved : envelope.work = some work := by rw [work_of_path hpath, hwork]
  refine ⟨fun failure hfailure => ?_, .inr ⟨work, hresolved, ?_⟩, fun decision h hstatus => ?_,
    fun decision h _ => ?_⟩
  · rw [hpath] at hfailure
    cases hfailure
  · rw [List.filterMap_cons_some hcall, List.filterMap_nil]
  · exact absurd (hreply decision h).1 hstatus
  · obtain ⟨-, hdecided, hgiven⟩ := hreply decision h
    exact ⟨[], call, context, path, rfl, hcall.trans hresolved.symm, hin, hpath, hdecided, hgiven,
      hcontext⟩

theorem admit_logs (ports : AdmissionPorts σ α) (envelope : AdmissionEnvelope) :
    Logs (AdmittedOnce envelope) (AdmissionRouter.admitEnvelope ports.recorded envelope)
      (AdmissionRouter.admitEnvelope ports envelope) := by
  unfold AdmissionRouter.admitEnvelope
  rcases hpath : discriminatePath envelope with failure | path
  · refine logs_pure ⟨fun other hother => ?_, .inl rfl, fun _ _ _ => rfl,
      fun decision h hstatus => ?_⟩
    · rw [hpath] at hother
      cases hother
      exact ⟨rfl, rfl⟩
    · cases h
      cases hstatus
  · obtain ⟨work, hwork⟩ := discriminatePath_payload hpath
    simp only
    refine admittedOnce_bind hpath (silent_port rfl) fun bound _ => ?_
    rcases bound with failure | configuration
    · refine logs_pure (admittedOnce_of_silent hpath (fun _ hcall => by cases hcall) ?_)
      intro decision h hstatus
      cases h
      cases hstatus
    · refine admittedOnce_bind hpath (createContext_logs _ _ _ _) fun context hcreated => ?_
      have hcontext : context.path = path ∧
          (context.timing.val.deadline.isSome → path = .interactive) := by
        refine ⟨hcreated.path, fun hdeadline => ?_⟩
        rw [hcreated.deadline] at hdeadline
        by_contra hbulk
        rw [if_neg hbulk] at hdeadline
        cases hdeadline
      refine logs_bind (dispatch_logs context hwork) (fun outcome _ => logs_lift ⟨rfl, rfl⟩) ?_ ?_
        (T := fun outcome later reply => later = [] ∧
          reply = Checked.make AdmissionDecision.postInit
            ⟨.accepted, some path, some context, outcome, none⟩)
      · rintro calls e ⟨call, rfl, hcall, hin⟩
        exact admittedOnce_of_dispatch hpath hwork hcall hin hcontext fun _ h => by cases h
      · rintro calls later outcome reply ⟨call, rfl, hcall, hin⟩ ⟨rfl, rfl⟩
        refine admittedOnce_of_dispatch hpath hwork hcall hin hcontext fun decision h => ?_
        rw [Checked.make_eq_ok.1 h]
        exact ⟨rfl, rfl, rfl⟩

theorem admit_transition (ports : AdmissionPorts σ α) (envelope : AdmissionEnvelope)
    (s : CallLog AdmissionCall σ) : ∃ calls,
      (admissionMachine ports.recorded envelope s).2 =
        ⟨(admissionMachine ports envelope s.world).2, s.calls ++ calls⟩ ∧
      (admissionMachine ports.recorded envelope s).1 = (admissionMachine ports envelope s.world).1 ∧
      AdmittedOnce envelope calls (admissionMachine ports envelope s.world).1 := by
  obtain ⟨calls, hexec, honce⟩ := admit_logs ports envelope s
  refine ⟨calls, ?_, ?_, honce⟩
  · exact congrArg Prod.snd hexec
  · exact congrArg Prod.fst hexec

/-- Along every run the payloads dispatched are, in order, some of those the envelopes are
resolved to, each at most once. -/
theorem run_dispatches (ports : AdmissionPorts σ α) (envelopes : List AdmissionEnvelope)
    (s : CallLog AdmissionCall σ) : ∃ calls,
      (admissionMachine ports.recorded).run s envelopes =
        ⟨(admissionMachine ports).run s.world envelopes, s.calls ++ calls⟩ ∧
      (calls.filterMap AdmissionCall.work).Sublist
        (envelopes.filterMap AdmissionEnvelope.work) := by
  induction envelopes generalizing s with
  | nil =>
    refine ⟨[], ?_, .slnil⟩
    rw [Machine.run_nil, Machine.run_nil, List.append_nil]
  | cons envelope rest ih =>
    obtain ⟨calls, hafter, -, honce⟩ := admit_transition ports envelope s
    obtain ⟨later, hrun, hlater⟩ := ih (admissionMachine ports.recorded envelope s).2
    refine ⟨calls ++ later, ?_, ?_⟩
    · rw [Machine.run_cons, hrun, hafter, Machine.run_cons, List.append_assoc]
    · rw [List.filterMap_append]
      rcases honce.dispatched with hnone | ⟨work, hwork, hone⟩
      · rw [hnone, List.nil_append]
        exact hlater.trans ((List.sublist_cons_self envelope rest).filterMap _)
      · rw [hone, List.filterMap_cons_some hwork]
        exact hlater.cons_cons work

/-- Admission is exclusive over every run: the logged router answers as the plain one does; what
is dispatched is, in the order of the envelopes, a payload of some of them, once and on the path
the envelope is resolved to; and each envelope is answered as `AdmittedOnce` says. -/
theorem admission_exclusive (ports : AdmissionPorts σ α) (s : σ)
    (envelopes : List AdmissionEnvelope) :
    let start : CallLog AdmissionCall σ := ⟨s, []⟩
    let last := (admissionMachine ports.recorded).run start envelopes
    last.world = (admissionMachine ports).run s envelopes ∧
    (last.calls.filterMap AdmissionCall.work).Sublist (envelopes.filterMap AdmissionEnvelope.work) ∧
    ∀ t ∈ (admissionMachine ports.recorded).history start envelopes, ∃ calls,
      t.after.calls = t.before.calls ++ calls ∧
      t.reply = (admissionMachine ports t.input t.before.world).1 ∧
      AdmittedOnce t.input calls t.reply := by
  intro start last
  obtain ⟨calls, hrun, hworks⟩ := run_dispatches ports envelopes start
  refine ⟨congrArg CallLog.world hrun, ?_, fun t ht => ?_⟩
  · have hcalls : last.calls = calls := by
      change ((admissionMachine ports.recorded).run start envelopes).calls = calls
      rw [hrun]
      rfl
    rw [hcalls]
    exact hworks
  · obtain ⟨before, envelope, rfl⟩ := Machine.history_transition ht
    obtain ⟨calls, hafter, hreply, honce⟩ := admit_transition ports envelope before
    refine ⟨calls, ?_, hreply, ?_⟩
    · exact congrArg CallLog.calls hafter
    · change AdmittedOnce envelope calls (admissionMachine ports.recorded envelope before).1
      rw [hreply]
      exact honce

end Routing

end AiRetrieval
