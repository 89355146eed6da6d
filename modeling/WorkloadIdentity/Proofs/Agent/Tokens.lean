/-
# Tokens of one response

Four calls ask an agent for the same message, and make of it all identities, the first,
the first with a hint, or the first token. Three of them read every token and stop at the
first that is refused, so a message is refused as a whole (`JwtSvidResponse.Refused`);
the fourth reads none. Whenever the message is not refused, the four agree: what
each gives out is one of the identities that all of them are.

An empty hint of an entry is no hint, so no identity is ever found under it.

Key definitions: `JwtSvidEntry.Makes`, `JwtSvidResponse.Reads`,
`JwtSvidResponse.Refused`, `FirstWithHint`.
Key theorems: `JwtSvidResponse.toSvids_eq_ok_iff`, `JwtSvidResponse.toSvids_eq_error_iff`,
`JwtSvidResponse.firstWithHint_svidByHint`, `Session.token_calls_agree`.
-/
import WorkloadIdentity.Agent.Client
import WorkloadIdentity.Proofs.Jwt.Vouched

namespace WorkloadIdentity

/-! ### Entries -/

/-- The identity is the one that the entry's token is read as, with the entry's hint
unless that is empty. -/
structure JwtSvidEntry.Makes (entry : JwtSvidEntry) (audience : List String) (now : Int)
    (svid : JwtSvid) : Prop where
  parse : JwtSvid.parseInsecure entry.token audience now = .ok { svid with hint := none }
  token : svid.token = entry.token
  hint : svid.hint = if entry.hint = "" then none else some entry.hint

/-- An identity that is read of a token holds the token and has no hint. -/
theorem JwtSvid.carried_of_parseInsecure {token : String} {audience : List String} {now : Int}
    {svid : JwtSvid} (h : parseInsecure token audience now = .ok svid) :
    svid.token = token ∧ svid.hint = none := by
  obtain ⟨_, _, _, _, _, hcarries⟩ := (decode_eq_ok_iff _ _).mp (decode_of_parseInsecure h)
  exact ⟨hcarries.token, hcarries.hint⟩

namespace JwtSvidEntry

variable {entry : JwtSvidEntry} {audience : List String} {now : Int} {svid : JwtSvid}

theorem toSvid_eq_ok_iff :
    entry.toSvid audience now = .ok svid ↔ entry.Makes audience now svid := by
  unfold toSvid
  simp only [ok_of_steps, ok_of_relabelled, ok_of_pure, String.isEmpty_iff]
  constructor
  · rintro ⟨plain, hparse, rfl⟩
    obtain ⟨htoken, hhint⟩ := JwtSvid.carried_of_parseInsecure hparse
    have hplain : plain = { plain with hint := none } := by rw [← hhint]
    by_cases hempty : entry.hint = ""
    · rw [if_pos hempty]
      exact ⟨hplain ▸ hparse, htoken, by rw [if_pos hempty, hhint]⟩
    · rw [if_neg hempty]
      exact ⟨hplain ▸ hparse, htoken, by rw [if_neg hempty]; rfl⟩
  · intro h
    refine ⟨_, h.parse, ?_⟩
    by_cases hempty : entry.hint = ""
    · rw [if_pos hempty, ← h.hint.trans (if_pos hempty)]
    · rw [if_neg hempty, JwtSvid.withHint, ← h.hint.trans (if_neg hempty)]

theorem toSvid_eq_error_iff {e : ApiError} :
    entry.toSvid audience now = .error e ↔
      ∃ cause, JwtSvid.parseInsecure entry.token audience now = .error cause ∧
        ApiError.jwtSvid cause = e := by
  unfold toSvid
  rw [error_of_steps, error_of_relabelled]
  exact or_iff_left fun ⟨_, _, h⟩ => by cases h

/-- An entry is read if and only if its token is. -/
theorem exists_toSvid_iff :
    (∃ svid, entry.toSvid audience now = .ok svid) ↔
      ∃ svid, JwtSvid.parseInsecure entry.token audience now = .ok svid := by
  unfold toSvid
  simp only [ok_of_steps, ok_of_relabelled, ok_of_pure]
  constructor
  · rintro ⟨_, svid, hparse, -⟩
    exact ⟨svid, hparse⟩
  · rintro ⟨svid, hparse⟩
    exact ⟨_, svid, hparse, rfl⟩

theorem Makes.hint_eq_none_iff (h : entry.Makes audience now svid) :
    svid.hint = none ↔ entry.hint = "" := by
  rw [h.hint]
  split <;> simp_all

theorem Makes.hint_ne_empty (h : entry.Makes audience now svid) : svid.hint ≠ some "" := by
  rw [h.hint]
  split <;> simp_all

end JwtSvidEntry

/-! ### Messages -/

/-- The answer is the first of the identities with a hint, or that there is none. -/
inductive FirstWithHint (svids : List JwtSvid) (hint : String) :
    Except ApiError JwtSvid → Prop where
  | found {before later : List JwtSvid} {svid : JwtSvid} :
      svids = before ++ svid :: later → svid.hint = some hint →
      (∀ earlier ∈ before, earlier.hint ≠ some hint) → FirstWithHint svids hint (.ok svid)
  | missing : (∀ svid ∈ svids, svid.hint ≠ some hint) →
      FirstWithHint svids hint (.error (.hintNotFound hint))

theorem firstWithHint_iff {svids : List JwtSvid} {hint : String}
    {answer : Except ApiError JwtSvid} :
    FirstWithHint svids hint answer ↔
      answer = (svids.find? (·.hint = some hint)).elim (.error (.hintNotFound hint)) .ok := by
  constructor
  · rintro (⟨hsplit, hhint, hbefore⟩ | hmissing)
    · have hfind : svids.find? (·.hint = some hint) = some _ :=
        List.find?_eq_some_iff_append.mpr ⟨decide_eq_true hhint, _, _, hsplit,
          fun earlier hearlier => by simpa using hbefore earlier hearlier⟩
      rw [hfind]
      rfl
    · have hfind : svids.find? (·.hint = some hint) = none :=
        List.find?_eq_none.mpr fun svid hsvid => mt of_decide_eq_true (hmissing svid hsvid)
      rw [hfind]
      rfl
  · rintro rfl
    cases hfind : svids.find? (·.hint = some hint) with
    | some svid =>
      obtain ⟨hhint, before, later, hsplit, hbefore⟩ := List.find?_eq_some_iff_append.mp hfind
      exact .found hsplit (of_decide_eq_true hhint) fun earlier hearlier => by
        simpa using hbefore earlier hearlier
    | none =>
      exact .missing fun svid hsvid => by simpa using List.find?_eq_none.mp hfind svid hsvid

/-- There is one answer. -/
theorem FirstWithHint.unique {svids : List JwtSvid} {hint : String}
    {answer answer' : Except ApiError JwtSvid} (h : FirstWithHint svids hint answer)
    (h' : FirstWithHint svids hint answer') : answer = answer' :=
  (firstWithHint_iff.mp h).trans (firstWithHint_iff.mp h').symm

namespace JwtSvidResponse

/-- There is a token in the message, and each is accepted. -/
structure Reads (response : JwtSvidResponse) (audience : List String) (now : Int) : Prop where
  nonempty : response.svids ≠ []
  accepted : ∀ entry ∈ response.svids,
    ∃ svid, JwtSvid.parseInsecure entry.token audience now = .ok svid

/-- There is no token in the message, or the first that is refused is refused for this
cause. -/
inductive Refused (response : JwtSvidResponse) (audience : List String) (now : Int) :
    ApiError → Prop where
  | empty : response.svids = [] → Refused response audience now .emptyResponse
  | token {before later : List JwtSvidEntry} {entry : JwtSvidEntry} {cause : JwtError} :
      response.svids = before ++ entry :: later →
      (∀ earlier ∈ before, ∃ svid, JwtSvid.parseInsecure earlier.token audience now = .ok svid) →
      JwtSvid.parseInsecure entry.token audience now = .error cause →
      Refused response audience now (.jwtSvid cause)

variable {response : JwtSvidResponse} {audience : List String} {now : Int}

theorem toSvids_eq_ok_iff {svids : List JwtSvid} :
    response.toSvids audience now = .ok svids ↔
      response.svids ≠ [] ∧
        List.Forall₂ (fun entry svid => entry.Makes audience now svid) response.svids svids := by
  unfold toSvids
  by_cases hempty : response.svids = []
  · rw [hempty]
    exact ⟨nofun, fun h => absurd rfl h.1⟩
  · rw [if_neg (mt List.isEmpty_iff.mp hempty), ok_of_each]
    simp only [JwtSvidEntry.toSvid_eq_ok_iff]
    exact (and_iff_right hempty).symm

/-- All identities are read if and only if there is a token and each is accepted. -/
theorem exists_toSvids_iff :
    (∃ svids, response.toSvids audience now = .ok svids) ↔ response.Reads audience now := by
  have heach : (∃ svids, response.toSvids audience now = .ok svids) ↔
      response.svids ≠ [] ∧ ∃ svids, response.svids.mapM (·.toSvid audience now) = .ok svids := by
    simp only [toSvids_eq_ok_iff, ok_of_each, JwtSvidEntry.toSvid_eq_ok_iff, exists_and_left]
  rw [heach, exists_ok_of_each]
  simp only [JwtSvidEntry.exists_toSvid_iff]
  exact ⟨fun ⟨hsome, haccepted⟩ => ⟨hsome, haccepted⟩, fun h => ⟨h.nonempty, h.accepted⟩⟩

/-- The cause is that of the first token that is refused. -/
theorem toSvids_eq_error_iff {e : ApiError} :
    response.toSvids audience now = .error e ↔ response.Refused audience now e := by
  unfold toSvids
  by_cases hempty : response.svids = []
  · rw [hempty]
    constructor
    · intro h
      obtain rfl := Except.error.inj h
      exact .empty hempty
    · rintro (_ | ⟨hsplit, -, -⟩)
      · rfl
      · rw [hempty] at hsplit
        exact absurd hsplit.symm (List.append_ne_nil_of_right_ne_nil _ (List.cons_ne_nil _ _))
  · rw [if_neg (mt List.isEmpty_iff.mp hempty), error_of_each]
    simp only [JwtSvidEntry.exists_toSvid_iff, JwtSvidEntry.toSvid_eq_error_iff]
    constructor
    · rintro ⟨before, entry, later, hsplit, hbefore, cause, hcause, rfl⟩
      exact .token hsplit hbefore hcause
    · rintro (hnone | ⟨hsplit, hbefore, hcause⟩)
      · exact absurd hnone hempty
      · exact ⟨_, _, _, hsplit, hbefore, _, hcause, rfl⟩

/-- No identity of a message has an empty hint. -/
theorem hint_ne_empty {svids : List JwtSvid} (h : response.toSvids audience now = .ok svids) :
    ∀ svid ∈ svids, svid.hint ≠ some "" := by
  obtain ⟨-, hmakes⟩ := toSvids_eq_ok_iff.mp h
  have heach := ok_of_each.mpr (hmakes.imp fun _ _ => JwtSvidEntry.toSvid_eq_ok_iff.mpr)
  intro svid hsvid
  obtain ⟨entry, -, hentry⟩ := (mem_of_each heach svid).mp hsvid
  exact (JwtSvidEntry.toSvid_eq_ok_iff.mp hentry).hint_ne_empty

/-- The first identity is the first of all, and the first token is its token. -/
theorem first_of_toSvids {svids : List JwtSvid} (h : response.toSvids audience now = .ok svids) :
    ∃ first rest, svids = first :: rest ∧ response.firstSvid audience now = .ok first ∧
      response.firstToken = .ok first.token := by
  obtain ⟨hsome, hmakes⟩ := toSvids_eq_ok_iff.mp h
  unfold firstSvid firstToken
  rw [h]
  cases hentries : response.svids with
  | nil => exact absurd hentries hsome
  | cons entry entries =>
    rw [hentries] at hmakes
    cases hmakes with
    | cons hfirst _ => exact ⟨_, _, rfl, rfl, congrArg Except.ok hfirst.token.symm⟩

theorem firstWithHint_svidByHint {svids : List JwtSvid}
    (h : response.toSvids audience now = .ok svids) (hint : String) :
    FirstWithHint svids hint (response.svidByHint audience now hint) := by
  rw [firstWithHint_iff]
  unfold svidByHint
  rw [h]
  simp only [bind, Except.bind]
  cases svids.find? (·.hint = some hint) <;> rfl

theorem svidByHint_empty {svids : List JwtSvid} (h : response.toSvids audience now = .ok svids) :
    response.svidByHint audience now "" = .error (.hintNotFound "") := by
  have hfirst := firstWithHint_svidByHint h ""
  generalize response.svidByHint audience now "" = answer at hfirst
  cases hfirst with
  | found hsplit hhint _ =>
    refine absurd hhint (hint_ne_empty h _ ?_)
    rw [hsplit]
    exact List.mem_append_right _ (.head _)
  | missing _ => rfl

/-- Where the message is refused, so is what is looked for in it. -/
theorem refused_of_toSvids {e : ApiError} (h : response.toSvids audience now = .error e) :
    response.firstSvid audience now = .error e ∧
      ∀ hint, response.svidByHint audience now hint = .error e := by
  unfold firstSvid svidByHint
  rw [h]
  exact ⟨rfl, fun _ => rfl⟩

end JwtSvidResponse

/-! ### Calls -/

namespace Session

theorem callJwtSvid_of_response {s : Session} {response : JwtSvidResponse}
    (h : s.agent.jwtSvids.head? = some (.ok response)) (audience : List String)
    (spiffeId : Option SpiffeId) : (s.callJwtSvid audience spiffeId).1 = .ok response := by
  show (s.agent.jwtSvids.headD _).mapError ApiError.status = _
  rw [List.headD_eq_head?_getD, h]
  rfl

/-- **The calls for tokens agree.** For every message that the agent answers with, every
audience and every clock: all identities are given out if and only if there is a token in
the message and each is accepted for the audience. Else the cause is that the message is
empty, or the cause for which the first token that is refused is refused, and there is no
list at all. A list has one identity for each entry, in order, read of the entry's token
and holding it, with no hint exactly if the entry's is empty. Then the first identity is
the first of the list, the first token is the token of it, and what is asked for by a hint
is the first of the list with the hint, or is not found; it never is under an empty hint.
And where there is no list, the first identity and that with a hint are refused for the same
cause. -/
theorem token_calls_agree (s : Session) (audience : List String) (spiffeId : Option SpiffeId)
    (now : Int) (response : JwtSvidResponse)
    (hresponse : s.agent.jwtSvids.head? = some (.ok response)) :
    let all := (s.fetchJwtSvids audience spiffeId now).1
    let first := (s.fetchJwtSvid audience spiffeId now).1
    let byHint (hint : String) := (s.fetchJwtSvidByHint audience spiffeId now hint).1
    let token := (s.fetchJwtToken audience spiffeId).1
    ((∃ svids, all = .ok svids) ↔ response.Reads audience now) ∧
    (∀ e, all = .error e ↔ response.Refused audience now e) ∧
    (∀ svids, all = .ok svids →
      List.Forall₂ (fun entry svid =>
        entry.Makes audience now svid ∧ (svid.hint = none ↔ entry.hint = "")) response.svids svids ∧
      (∃ svid rest, svids = svid :: rest ∧ first = .ok svid ∧ token = .ok svid.token) ∧
      (∀ hint, FirstWithHint svids hint (byHint hint)) ∧
      byHint "" = .error (.hintNotFound "")) ∧
    ∀ e, all = .error e → first = .error e ∧ ∀ hint, byHint hint = .error e := by
  intro all first byHint token
  have hmade {α : Type} (make : JwtSvidResponse → Except ApiError α) :
      (s.callJwtSvid audience spiffeId).1 >>= make = make response := by
    rw [callJwtSvid_of_response hresponse audience spiffeId]
    rfl
  have hall : all = response.toSvids audience now := hmade _
  have hfirst : first = response.firstSvid audience now := hmade _
  have hhint (hint : String) : byHint hint = response.svidByHint audience now hint := hmade _
  have htoken : token = response.firstToken := hmade _
  simp only [hall, hfirst, hhint, htoken]
  refine ⟨JwtSvidResponse.exists_toSvids_iff, fun e => JwtSvidResponse.toSvids_eq_error_iff,
    fun svids hsvids => ?_, fun e => JwtSvidResponse.refused_of_toSvids⟩
  obtain ⟨-, hmakes⟩ := JwtSvidResponse.toSvids_eq_ok_iff.mp hsvids
  exact ⟨hmakes.imp fun entry svid hmade => ⟨hmade, hmade.hint_eq_none_iff⟩,
    JwtSvidResponse.first_of_toSvids hsvids, JwtSvidResponse.firstWithHint_svidByHint hsvids,
    JwtSvidResponse.svidByHint_empty hsvids⟩

/-- A client whose agent answers the next call for tokens with these. -/
def issued (entries : List JwtSvidEntry) : Session :=
  start ⟨[], [], [], [.ok ⟨entries⟩], []⟩ .standard

/-- One token without a hint and then with one: under the hint the second is found, and under
an empty hint neither is. With a text after it that is no token, the token is not given out. -/
theorem token_calls_agree_edge :
    let both := issued [⟨"", JwtSvid.serviceToken, ""⟩, ⟨"", JwtSvid.serviceToken, "edge"⟩]
    let broken := issued [⟨"", JwtSvid.serviceToken, "edge"⟩, ⟨"", "", ""⟩]
    (∃ response, both.agent.jwtSvids.head? = some (.ok response)) ∧
    (∃ response, broken.agent.jwtSvids.head? = some (.ok response)) ∧
    (∃ plain edge, (both.fetchJwtSvids ["audience"] none 1700000000).1 = .ok [plain, edge] ∧
      (both.fetchJwtSvid ["audience"] none 1700000000).1 = .ok plain ∧
      (both.fetchJwtToken ["audience"] none).1 = .ok plain.token ∧
      (both.fetchJwtSvidByHint ["audience"] none 1700000000 "edge").1 = .ok edge ∧
      (both.fetchJwtSvidByHint ["audience"] none 1700000000 "").1 = .error (.hintNotFound "")) ∧
    (broken.fetchJwtSvid ["audience"] none 1700000000).1 = .error (.jwtSvid .invalidFormat) ∧
    (broken.fetchJwtSvidByHint ["audience"] none 1700000000 "edge").1 =
      .error (.jwtSvid .invalidFormat) := by
  intro both broken
  obtain ⟨svid, haccepted, -⟩ := Option.map_eq_some_iff.mp JwtSvid.serviceToken_identity
  have hparse := JwtSvid.parseInsecure_of_parseAndValidate (ok_of_result.mp haccepted)
  refine ⟨⟨_, rfl⟩, ⟨_, rfl⟩, ?_, ?_⟩
  · obtain ⟨hreads, -, hagree, -⟩ := token_calls_agree both ["audience"] none 1700000000 _ rfl
    obtain ⟨svids, hsvids⟩ := hreads.mpr ⟨List.cons_ne_nil _ _, by simp [hparse]⟩
    obtain ⟨hmakes, ⟨first, rest, hsplit, hfirst, htoken⟩, hbyHint, hempty⟩ := hagree svids hsvids
    -- the two entries make two identities, and only the second has a hint
    cases hmakes with
    | @cons _ plain _ _ hplain hmakes =>
    cases hmakes with
    | @cons _ edge _ _ hedge hmakes =>
    cases hmakes
    obtain ⟨rfl, -⟩ := List.cons.inj hsplit
    have hnone : plain.hint = none := hplain.1.hint
    have hsome : edge.hint = some "edge" := hedge.1.hint
    refine ⟨plain, edge, hsvids, hfirst, htoken, ?_, hempty⟩
    have hfound : FirstWithHint [plain, edge] "edge" (.ok edge) := by
      refine @FirstWithHint.found _ _ [plain] [] edge rfl hsome fun earlier hearlier => ?_
      obtain rfl := List.mem_singleton.mp hearlier
      rw [hnone]
      exact nofun
    exact (hbyHint "edge").unique hfound
  · obtain ⟨-, hrefused, -, hfails⟩ := token_calls_agree broken ["audience"] none 1700000000 _ rfl
    have hall := (hrefused (.jwtSvid .invalidFormat)).mpr
      (@JwtSvidResponse.Refused.token _ _ _ [⟨"", JwtSvid.serviceToken, "edge"⟩] [] _ _ rfl ?_ rfl)
    · obtain ⟨hfirst, hbyHint⟩ := hfails _ hall
      exact ⟨hfirst, hbyHint "edge"⟩
    · simp [hparse]

end Session
end WorkloadIdentity
