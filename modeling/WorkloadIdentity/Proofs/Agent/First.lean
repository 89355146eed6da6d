/-
# What a call makes of a stream

A call for the first message of a stream waits out the silence before it and goes by the
first item, or by the agent closing the stream instead (`Attempt.answer`). So two streams
that begin with the same item give it the same answer (`Attempt.answer_of_begins`), and there
is none if and only if the stream stays silent for good (`Attempt.answer_eq_none_iff`).

The call for one identity reads less of a message than the one for the whole context does.
It gives the identity that the context has first, and fails only where that call fails, for
the same cause (`X509Context.firstSvid_of_ofResponse`, `X509Context.ofResponse_of_firstSvid`).

Key definitions: `Attempt.Begins`, `Attempt.IsEmpty`, `Attempt.answer`, `Session.fetched`.
Key theorems: `Attempt.answer_of_begins`, `Attempt.answer_eq_none_iff`,
`Session.fetched_eq`, `Session.fetchX509Svid_eq`.
-/
import WorkloadIdentity.Agent.Client
import WorkloadIdentity.Proofs.Agent.Context

namespace WorkloadIdentity

variable {μ ν κ : Type}

/-- The item is no more than some silence. -/
def Item.IsPause : Item μ → Prop
  | delay _ => True
  | _ => False

namespace Attempt

/-- The stream is opened and, perhaps after some silence, brings the item first. -/
def Begins (attempt : Attempt μ) (item : Item μ) : Prop :=
  ∃ pauses rest closes, attempt = opened (pauses ++ item :: rest) closes ∧
    (∀ pause ∈ pauses, pause.IsPause) ∧ ¬ item.IsPause

/-- The stream is opened and brings nothing, until the agent closes it or for good. -/
def IsEmpty (attempt : Attempt μ) (closes : Bool) : Prop :=
  ∃ pauses, attempt = opened pauses closes ∧ ∀ pause ∈ pauses, pause.IsPause

/-- What a call makes of the first message. -/
def answer (convert : μ → Except ApiError ν) (attempt : Attempt μ) : Option (Except ApiError ν) :=
  attempt.first.map (·.2 >>= convert)

/-! ### Item by item -/

variable (convert : μ → Except ApiError ν) (items : List (Item μ)) (closes : Bool)

theorem answer_opened_nil :
    (opened [] closes).answer convert = if closes then some (.error .emptyResponse) else none := by
  cases closes <;> rfl

theorem answer_opened_message (content : μ) :
    (opened (.message content :: items) closes).answer convert = some (convert content) := rfl

theorem answer_opened_status (cause : Status) :
    (opened (.status cause :: items) closes).answer convert = some (.error (.status cause)) := rfl

/-- Silence only takes time. -/
theorem answer_opened_delay (millis : Nat) :
    (opened (.delay millis :: items) closes).answer convert =
      (opened items closes).answer convert := by
  show ((firstItem closes items).map _).map _ = (firstItem closes items).map _
  rw [Option.map_map]
  rfl

theorem answer_opened_append {pauses : List (Item μ)} (h : ∀ pause ∈ pauses, pause.IsPause) :
    (opened (pauses ++ items) closes).answer convert = (opened items closes).answer convert := by
  induction pauses with
  | nil => rfl
  | cons pause pauses ih =>
    obtain ⟨hpause, hrest⟩ := List.forall_mem_cons.mp h
    cases pause with
    | delay millis => exact (answer_opened_delay _ _ _ _).trans (ih hrest)
    | _ => exact hpause.elim

/-! ### Whole streams -/

variable {convert items closes} {attempt : Attempt μ}

/-- Nothing but the first item matters. -/
theorem answer_of_begins {item : Item μ} (h : attempt.Begins item) :
    attempt.answer convert = (opened [item] false).answer convert := by
  obtain ⟨pauses, rest, closes, rfl, hpauses, hitem⟩ := h
  rw [answer_opened_append convert (item :: rest) closes hpauses]
  cases item with
  | message content => rfl
  | status cause => rfl
  | delay millis => exact absurd trivial hitem

theorem IsEmpty.delay {closes' : Bool} (h : (opened items closes).IsEmpty closes') (millis : Nat) :
    (opened (.delay millis :: items) closes).IsEmpty closes' := by
  obtain ⟨pauses, hopened, hpauses⟩ := h
  obtain ⟨rfl, rfl⟩ := Attempt.opened.inj hopened
  exact ⟨_, rfl, List.forall_mem_cons.mpr ⟨trivial, hpauses⟩⟩

theorem answer_of_isEmpty (h : attempt.IsEmpty closes) :
    attempt.answer convert = if closes then some (.error .emptyResponse) else none := by
  obtain ⟨pauses, rfl, hpauses⟩ := h
  rw [← List.append_nil pauses, answer_opened_append convert [] closes hpauses,
    answer_opened_nil]

/-- There is no answer if and only if the stream is silent for good. -/
theorem answer_eq_none_iff : attempt.answer convert = none ↔ attempt.IsEmpty false := by
  refine ⟨fun h => ?_, answer_of_isEmpty⟩
  cases attempt with
  | rejected cause => cases h
  | opened items closes =>
    induction items with
    | nil =>
      cases closes with
      | true => cases h
      | false => exact ⟨[], rfl, nofun⟩
    | cons item items ih =>
      cases item with
      | message content => cases h
      | status cause => cases h
      | delay millis =>
        rw [answer_opened_delay] at h
        exact (ih h).delay millis

theorem answer_map (f : κ → μ) (attempt : Attempt κ) :
    (attempt.map f).answer convert = attempt.answer fun content => convert (f content) := by
  cases attempt with
  | rejected cause => rfl
  | opened items closes =>
    induction items with
    | nil => exact (answer_opened_nil _ _).trans (answer_opened_nil _ _).symm
    | cons item items ih =>
      cases item with
      | message content => rfl
      | status cause => rfl
      | delay millis =>
        rw [answer_opened_delay, ← ih]
        exact answer_opened_delay convert (items.map (Item.map f)) closes millis

theorem map_answer (f : ν → κ) :
    (attempt.answer convert).map (·.map f) =
      attempt.answer fun content => (convert content).map f := by
  unfold answer
  rw [Option.map_map]
  refine congrArg (attempt.first.map ·) (funext fun ⟨_, content⟩ => ?_)
  cases content <;> rfl

end Attempt

/-! ### Identities of a message -/

namespace X509Context

variable {response : X509SvidResponse}

/-- The identity by itself is the first of the context. -/
theorem firstSvid_of_ofResponse {context : X509Context} (h : ofResponse response = .ok context) :
    ∃ svid, context.defaultSvid? = some svid ∧ response.firstSvid = .ok svid := by
  have hmakes := forall₂_makes h
  have hsome := (ofResponse_eq_ok_iff.mp h).1
  unfold X509SvidResponse.firstSvid defaultSvid?
  cases hentries : response.svids with
  | nil => exact absurd hentries hsome
  | cons entry entries =>
    rw [hentries] at hmakes
    generalize context.svids = svids at hmakes
    cases hmakes with
    | cons hfirst _ => exact ⟨_, rfl, X509SvidEntry.toSvid_eq_ok_iff.mpr hfirst⟩

/-- Where there is no first identity, there is no context. -/
theorem ofResponse_of_firstSvid {cause : ApiError} (h : response.firstSvid = .error cause) :
    ofResponse response = .error cause := by
  unfold X509SvidResponse.firstSvid at h
  unfold ofResponse
  cases hentries : response.svids with
  | nil =>
    rw [hentries] at h
    obtain rfl := Except.error.inj h
    rfl
  | cons entry entries =>
    rw [hentries] at h
    have hentry : entry.toSvidAndBundle = .error cause := error_of_steps.mpr (.inl h)
    have heach : (entry :: entries).mapM X509SvidEntry.toSvidAndBundle = .error cause :=
      error_of_each.mpr ⟨[], entry, entries, rfl, nofun, hentry⟩
    exact error_of_steps.mpr (.inl heach)

end X509Context

/-- The first identity of a message of identities. -/
def Message.firstSvid : Message → Except ApiError X509Svid
  | x509Svids content => content.firstSvid
  | _ => .error .emptyResponse

/-! ### Calls -/

namespace Session

/-- What the call for the first message of a stream gives. -/
def fetched (s : Session) : StreamKind → Option (Except ApiError Update)
  | .x509Context => s.fetchX509Context.1.map (·.map .x509Context)
  | .x509Bundles => s.fetchX509Bundles.1.map (·.map .x509Bundles)
  | .jwtBundles => s.fetchJwtBundles.1.map (·.map .jwtBundles)

theorem first_eq (s : Session) (kind : StreamKind) (queue : Agent → List (Attempt μ))
    (convert : μ → Except ApiError ν) :
    (s.first kind queue convert).1 = ((queue s.agent).headD .silent).answer convert := by
  unfold first Attempt.answer
  cases ((queue s.agent).headD .silent).first <;> rfl

theorem first_update (s : Session) (kind : StreamKind) (queue : Agent → List (Attempt μ))
    {convert : μ → Except ApiError ν} {wrap : μ → Message} {update : ν → Update}
    (h : ∀ content, (wrap content).toUpdate = (convert content).map update) :
    (s.first kind queue convert).1.map (·.map update) =
      (((queue s.agent).headD .silent).map wrap).answer Message.toUpdate := by
  rw [first_eq, Attempt.map_answer, Attempt.answer_map, funext h]

/-- A call goes by the attempt that a watch of the stream would be given. -/
theorem fetched_eq (s : Session) (kind : StreamKind) :
    s.fetched kind = (s.agent.next kind).answer Message.toUpdate := by
  cases kind with
  | x509Context => exact s.first_update .x509Context Agent.x509Svids fun _ => rfl
  | x509Bundles => exact s.first_update .x509Bundles Agent.x509Bundles fun _ => rfl
  | jwtBundles => exact s.first_update .jwtBundles Agent.jwtBundles fun _ => rfl

theorem fetchX509Svid_eq (s : Session) :
    s.fetchX509Svid.1 = (s.agent.next .x509Context).answer Message.firstSvid := by
  show (s.first .x509Context Agent.x509Svids X509SvidResponse.firstSvid).1 =
    ((s.agent.x509Svids.headD .silent).map _).answer _
  rw [first_eq, Attempt.answer_map]
  rfl

/-- The first identity by itself is the default one of the context. -/
theorem fetchX509Svid_of_context (s : Session) {context : X509Context}
    (h : s.fetchX509Context.1 = some (.ok context)) :
    ∃ svid, context.defaultSvid? = some svid ∧ s.fetchX509Svid.1 = some (.ok svid) := by
  rw [fetchX509Context, first_eq] at h
  obtain ⟨⟨elapsed, content⟩, hfirst, hcontent⟩ := Option.map_eq_some_iff.mp h
  obtain ⟨response, hresponse, hcontext⟩ := ok_of_steps.mp hcontent
  obtain ⟨svid, hdefault, hsvid⟩ := X509Context.firstSvid_of_ofResponse hcontext
  refine ⟨svid, hdefault, ?_⟩
  rw [fetchX509Svid, first_eq, Attempt.answer, hfirst]
  exact congrArg some (ok_of_steps.mpr ⟨response, hresponse, hsvid⟩)

/-- Where the first identity fails, the context does. -/
theorem fetchX509Context_of_svid (s : Session) {cause : ApiError}
    (h : s.fetchX509Svid.1 = some (.error cause)) :
    s.fetchX509Context.1 = some (.error cause) := by
  rw [fetchX509Svid, first_eq] at h
  obtain ⟨⟨elapsed, content⟩, hfirst, hcontent⟩ := Option.map_eq_some_iff.mp h
  rw [fetchX509Context, first_eq, Attempt.answer, hfirst]
  refine congrArg some (error_of_steps.mpr ?_)
  rcases error_of_steps.mp hcontent with hfails | ⟨response, hresponse, hsvid⟩
  · exact .inl hfails
  · exact .inr ⟨response, hresponse, X509Context.ofResponse_of_firstSvid hsvid⟩

end Session
end WorkloadIdentity
