/-
# Segments and the paths they make

An identity is built, continued or given another path from a path, which is checked as a whole,
or from segments, which are checked one by one and then joined. The two come to the same
(`SpiffeId.BuildsAlike`): what is built holds exactly the segments that were given, none of
them cut in two, and if no segment holds a slash the answers are equal, refusals included. They
differ in one point only. Of an empty last segment the check of a path says that its slash is
one too many, and the check of segments that it is empty (`SpiffeId.EndsEmpty`).

Both ways compose. A path after a path is a path, and whether paths or segments are added at
once or one after the other makes no difference, not even to which error is reported
(`joinSegments_append`).

Key definitions: `SpiffeId.pieces`, `SpiffeId.pathText`, `SpiffeId.EndsEmpty`,
`SpiffeId.BuildsAlike`.
Key theorems: `joinSegments_eq_error_iff`, `joinSegments_append`, `SpiffeId.buildsAlike`,
`SpiffeId.segments_agree_with_path`, `SpiffeId.operations_compose`.
-/
import WorkloadIdentity.Proofs.Id.Reach
import WorkloadIdentity.Proofs.Id.Refusal

namespace WorkloadIdentity

/-! ### Segments, joined and checked -/

theorem joinSegments_nil : joinSegments [] = pure [] := rfl

theorem joinSegments_cons (segment : List Char) (rest : List (List Char)) :
    joinSegments (segment :: rest) = (checkSegment segment >>= fun _ =>
      joinSegments rest >>= fun path => pure ('/' :: segment ++ path)) := rfl

/-- **Segments are joined up to the first one that is refused.** -/
theorem joinSegments_eq_error_iff (e : IdError) : ∀ segments : List (List Char),
    joinSegments segments = .error e ↔
      FirstAtFault (fun segment _ => checkSegment segment = .error e) segments
  | [] => ⟨nofun, fun h => absurd h not_firstAtFault_nil⟩
  | segment :: rest => by
    rw [joinSegments_cons, error_of_check, checkSegment_eq_ok_iff, firstAtFault_cons, error_of_steps,
      joinSegments_eq_error_iff e rest]
    -- what is joined does not fail
    refine or_congr_right (and_congr_right fun _ => or_iff_left ?_)
    rintro ⟨path, -, hpath⟩
    cases hpath

/-- **Joining a list is joining its parts, wherever it is cut.** -/
theorem joinSegments_append : ∀ xs ys : List (List Char),
    joinSegments (xs ++ ys) =
      (joinSegments xs >>= fun front => joinSegments ys >>= fun back => pure (front ++ back))
  | [], ys => by
    simp only [List.nil_append, joinSegments_nil, pure_bind, bind_pure]
  | segment :: xs, ys => by
    simp only [List.cons_append, joinSegments_cons, joinSegments_append xs ys, bind_assoc, pure_bind,
      List.append_assoc]

/-- Only segments without slashes are joined. -/
theorem exists_joinSegments_error {segments : List (List Char)} {segment : List Char}
    (hmem : segment ∈ segments) (hslash : '/' ∈ segment) : ∃ e, joinSegments segments = .error e := by
  cases hjoin : joinSegments segments with
  | error e => exact ⟨e, rfl⟩
  | ok path =>
    obtain ⟨hall, -⟩ := (joinSegments_eq_ok_iff _ _).mp hjoin
    exact absurd hslash (hall segment hmem).slash_not_mem

theorem checkPath_append {p q : List Char} (hp : checkPath p = .ok ()) (hq : checkPath q = .ok ()) :
    checkPath (p ++ q) = .ok () := by
  obtain ⟨xs, hxs, rfl⟩ := (checkPath_eq_ok_iff p).mp hp
  obtain ⟨ys, hys, rfl⟩ := (checkPath_eq_ok_iff q).mp hq
  rw [← pathOf_append]
  exact checkPath_pathOf_eq_ok (List.forall_mem_append.mpr ⟨hxs, hys⟩)

theorem pathOf_eq_nil_iff {segments : List (List Char)} : pathOf segments = [] ↔ segments = [] := by
  cases segments <;> simp

/-- More segments behind a text are more pieces of it. -/
theorem splitOn_append_pathOf (text : List Char) {segments : List (List Char)}
    (h : ∀ segment ∈ segments, '/' ∉ segment) :
    (text ++ pathOf segments).splitOn '/' = text.splitOn '/' ++ segments := by
  obtain ⟨front, own, hcut⟩ := exists_isCut text
  have hmore : IsCut (text ++ pathOf segments) front (own ++ segments) := by
    refine ⟨?_, hcut.front_free, List.forall_mem_append.mpr ⟨hcut.segments_free, h⟩⟩
    rw [hcut.text_eq, pathOf_append, List.append_assoc]
  rw [hmore.splitOn, hcut.splitOn, List.cons_append]

namespace SpiffeId

/-! ### Two ways to build -/

/-- What stands between the slashes of a path. The empty path is one empty piece. -/
def pieces (path : String) : List String := (path.toList.splitOn '/').map String.ofList

/-- Segments in writing, a slash before each. -/
def pathText (segments : List String) : String := String.join (segments.map ("/" ++ ·))

/-- The last segment is empty, and all before it are segments of the grammar. -/
def EndsEmpty (segments : List String) : Prop :=
  ∃ front, segments = front ++ [""] ∧ ∀ segment ∈ front, IsSegment segment.toList

/-- Building from segments comes to building from the path they make, with the path `own` in
front of it. -/
structure BuildsAlike (own : String) (bySegments : List String → Except IdError SpiffeId)
    (byPath : String → Except IdError SpiffeId) : Prop where
  ok_iff {segments : List String} : (∃ id, bySegments segments = .ok id) ↔
    ∀ segment ∈ segments, IsSegment segment.toList
  /-- What is built has the segments for its pieces. -/
  pieces_eq {segments : List String} {id : SpiffeId} : bySegments segments = .ok id →
    pieces id.path = pieces own ++ segments
  path_eq_iff {segments : List String} {id : SpiffeId} : bySegments segments = .ok id →
    (id.path = own ↔ segments = [])
  same {segments : List String} : (∀ segment ∈ segments, '/' ∉ segment.toList) →
    ¬ EndsEmpty segments → bySegments segments = byPath (pathText segments)
  endsEmpty {segments : List String} : EndsEmpty segments →
    bySegments segments = .error .emptySegment ∧
      byPath (pathText segments) = .error .trailingSlash
  slash {segments : List String} {segment : String} : segment ∈ segments →
    '/' ∈ segment.toList → ∃ e, bySegments segments = .error e

theorem toList_pathText (segments : List String) :
    (pathText segments).toList = pathOf (segments.map String.toList) := by
  unfold pathText pathOf
  rw [String.toList_join, List.flatMap_map, List.flatMap_map]
  simp

theorem EndsEmpty.free {segments : List String} (h : EndsEmpty segments) :
    ∀ segment ∈ segments.map String.toList, '/' ∉ segment := by
  obtain ⟨front, rfl, hfront⟩ := h
  rw [List.map_append, List.forall_mem_append, List.forall_mem_map]
  exact ⟨fun segment hs => (hfront segment hs).slash_not_mem, by simp⟩

theorem joinSegments_of_endsEmpty {segments : List String} (h : EndsEmpty segments) :
    joinSegments (segments.map String.toList) = .error .emptySegment := by
  obtain ⟨front, rfl, hfront⟩ := h
  rw [joinSegments_eq_error_iff]
  exact ⟨front.map String.toList, [], [], by simp, by simpa using hfront, rfl⟩

theorem checkSegments_of_endsEmpty {segments : List String} (h : EndsEmpty segments) :
    checkSegments (segments.map String.toList) = .error .trailingSlash := by
  obtain ⟨front, rfl, hfront⟩ := h
  rw [checkSegments_eq_error_iff]
  exact ⟨front.map String.toList, [], [], by simp, by simpa using hfront, .trailing rfl rfl⟩

/-- Segment by segment both checks give the same answer, up to an empty one at the end. -/
theorem joinSegments_eq_checkSegments : ∀ {segments : List String}, ¬ EndsEmpty segments →
    joinSegments (segments.map String.toList) =
      (checkSegments (segments.map String.toList) >>= fun _ =>
        pure (pathOf (segments.map String.toList)))
  | [], _ => rfl
  | [last], h => by
    have hne : ¬ last.toList.isEmpty = true := by
      intro hnil
      rw [List.isEmpty_iff, String.toList_eq_nil_iff] at hnil
      exact h ⟨[], by rw [hnil]; rfl, by simp⟩
    simp only [List.map_cons, List.map_nil, checkSegments, if_neg hne, joinSegments_cons,
      joinSegments_nil, pure_bind, pathOf_cons, pathOf_nil]
  | segment :: second :: rest, h => by
    simp only [List.map_cons, joinSegments_cons segment.toList, checkSegments_cons_cons, bind_assoc]
    cases hsegment : checkSegment segment.toList with
    | error e => rfl
    | ok _ =>
      have hrest : ¬ EndsEmpty (second :: rest) := by
        rintro ⟨front, heq, hfront⟩
        rw [checkSegment_eq_ok_iff] at hsegment
        exact h ⟨segment :: front, by rw [heq]; rfl, List.forall_mem_cons.mpr ⟨hsegment, hfront⟩⟩
      have ih := joinSegments_eq_checkSegments hrest
      rw [List.map_cons] at ih
      simp only [ih, bind_assoc, pure_bind, pathOf_cons segment.toList]

section
variable {own : String} {build : String → SpiffeId}

/-- What is made of joined segments has them for its path, behind `own`. -/
theorem path_of_joined (hbuild : ∀ path, (build path).path = own ++ path) {segments : List String}
    {id : SpiffeId} (h : (joinSegments (segments.map String.toList) >>= fun path =>
      pure (build (String.ofList path))) = .ok id) :
    (∀ segment ∈ segments.map String.toList, IsSegment segment) ∧
      id.path.toList = own.toList ++ pathOf (segments.map String.toList) := by
  obtain ⟨path, hjoin, hid⟩ := ok_of_steps.mp h
  obtain rfl := ok_of_pure.mp hid
  obtain ⟨hall, rfl⟩ := (joinSegments_eq_ok_iff _ _).mp hjoin
  refine ⟨hall, ?_⟩
  rw [hbuild, String.toList_append, String.toList_ofList]

/-- Whatever makes an identity of a checked path builds alike from segments and from a path, if it
puts the path behind `own`. -/
theorem buildsAlike (hbuild : ∀ path, (build path).path = own ++ path) :
    BuildsAlike own
      (fun segments => joinSegments (segments.map String.toList) >>= fun path =>
        pure (build (String.ofList path)))
      (fun path => checkPath path.toList >>= fun _ => pure (build path)) := by
  constructor
  case ok_iff =>
    intro segments
    constructor
    · rintro ⟨id, h⟩
      simpa using (path_of_joined hbuild h).1
    · intro hall
      have hall' : ∀ segment ∈ segments.map String.toList, IsSegment segment := by simpa using hall
      exact ⟨_, ok_of_steps.mpr ⟨_, (joinSegments_eq_ok_iff _ _).mpr ⟨hall', rfl⟩, rfl⟩⟩
  case pieces_eq =>
    intro segments id h
    obtain ⟨hall, hpath⟩ := path_of_joined hbuild h
    unfold pieces
    rw [hpath, splitOn_append_pathOf _ fun segment hs => (hall segment hs).slash_not_mem]
    simp
  case path_eq_iff =>
    intro segments id h
    obtain ⟨-, hpath⟩ := path_of_joined hbuild h
    rw [← String.toList_inj, hpath, List.append_right_eq_self, pathOf_eq_nil_iff, List.map_eq_nil_iff]
  case same =>
    intro segments hfree hends
    have hfree' : ∀ segment ∈ segments.map String.toList, '/' ∉ segment := by simpa using hfree
    simp only [toList_pathText, checkPath_pathOf hfree', joinSegments_eq_checkSegments hends]
    cases checkSegments (segments.map String.toList) with
    | error e => rfl
    | ok _ =>
      have htext : String.ofList (pathOf (segments.map String.toList)) = pathText segments := by
        rw [← toList_pathText, String.ofList_toList]
      exact congrArg (fun path => Except.ok (build path)) htext
  case endsEmpty =>
    intro segments hends
    have hfree := hends.free
    simp only [toList_pathText, checkPath_pathOf hfree, checkSegments_of_endsEmpty hends,
      joinSegments_of_endsEmpty hends]
    exact ⟨rfl, rfl⟩
  case slash =>
    intro segments segment hmem hslash
    obtain ⟨e, he⟩ := exists_joinSegments_error (List.mem_map_of_mem hmem) hslash
    exact ⟨e, by simp only [he]; rfl⟩

end

theorem path_extend_of_reach {td : TrustDomain} {id : SpiffeId} (h : Reach td id) (more : String) :
    (id.extend more).path = id.path ++ more := by
  obtain ⟨x, rfl, -⟩ := reach_spelled h
  unfold Spelling.id
  rw [extend_join, path_join, path_join]

/-- **Segments agree with the path they make, and none is smuggled in.** For every trust domain and
every identity that operations make, building, continuing and replacing succeed from segments of
the grammar only, and then with exactly these segments as pieces of the path, behind the leading
empty one or behind those that were there; they fail if a segment holds a slash; and otherwise
they answer as from the path of the segments, with the one exception of an empty last segment. -/
theorem segments_agree_with_path {td : TrustDomain} {id : SpiffeId} (h : Reach td id) :
    (∀ td', BuildsAlike "" (ofSegments td') (ofPath td')) ∧
    BuildsAlike id.path id.appendSegments id.appendPath ∧
    BuildsAlike "" id.replaceSegments id.replacePath := by
  have hbuild : ∀ td', BuildsAlike "" (ofSegments td') (ofPath td') := fun td' =>
    buildsAlike fun path => by rw [path_join, String.empty_append]
  exact ⟨hbuild, buildsAlike (path_extend_of_reach h), hbuild id.trustDomain⟩

/-- An identity with a path, as it is read. -/
theorem reach_ns : Reach ⟨"acme.io"⟩ ⟨"spiffe://acme.io/ns", 16⟩ := by
  have hread : SpiffeId.parse "spiffe://acme.io/ns" = .ok ⟨"spiffe://acme.io/ns", 16⟩ := by
    decide +kernel
  have hdomain : (SpiffeId.mk "spiffe://acme.io/ns" 16).trustDomain = ⟨"acme.io"⟩ := by
    decide +kernel
  rw [← hdomain]
  exact .parse hread

/-- Segments below an identity are its last pieces, an empty last segment is told in two ways, and
a slash in a segment is refused. -/
theorem segments_agree_with_path_nested :
    Reach ⟨"acme.io"⟩ ⟨"spiffe://acme.io/ns", 16⟩ ∧
    SpiffeId.appendSegments ⟨"spiffe://acme.io/ns", 16⟩ ["db", "primary"] =
      .ok ⟨"spiffe://acme.io/ns/db/primary", 16⟩ ∧
    pieces "/ns/db/primary" = ["", "ns", "db", "primary"] ∧
    SpiffeId.appendSegments ⟨"spiffe://acme.io/ns", 16⟩ ["db", ""] = .error .emptySegment ∧
    SpiffeId.appendPath ⟨"spiffe://acme.io/ns", 16⟩ "/db/" = .error .trailingSlash ∧
    ∃ e, SpiffeId.ofSegments ⟨"acme.io"⟩ ["ns/db"] = .error e := by
  have hadded : SpiffeId.appendSegments ⟨"spiffe://acme.io/ns", 16⟩ ["db", "primary"] =
      .ok ⟨"spiffe://acme.io/ns/db/primary", 16⟩ := by decide +kernel
  have hpath : (SpiffeId.mk "spiffe://acme.io/ns/db/primary" 16).path = "/ns/db/primary" := by
    decide +kernel
  have hown : pieces (SpiffeId.mk "spiffe://acme.io/ns" 16).path = ["", "ns"] := by decide +kernel
  have hends : EndsEmpty ["db", ""] := by
    refine ⟨["db"], rfl, fun segment hs => (checkSegment_eq_ok_iff _).mp ?_⟩
    rw [List.mem_singleton.mp hs]
    decide +kernel
  obtain ⟨hof, happend, -⟩ := segments_agree_with_path reach_ns
  have hpieces := happend.pieces_eq hadded
  rw [hpath, hown] at hpieces
  obtain ⟨hempty, htrailing⟩ := happend.endsEmpty hends
  have hslash : '/' ∈ "ns/db".toList := by decide +kernel
  exact ⟨reach_ns, hadded, hpieces, hempty, htrailing, (hof _).slash List.mem_cons_self hslash⟩

/-! ### One operation after the other -/

theorem appendPath_append (id : SpiffeId) {p q : String} (hp : checkPath p.toList = .ok ())
    (hq : checkPath q.toList = .ok ()) :
    (id.appendPath p >>= (·.appendPath q)) = .ok (id.extend (p ++ q)) := by
  unfold appendPath extend
  rw [hp]
  show (checkPath q.toList >>= fun _ => _) = _
  rw [hq, ← String.append_assoc]
  rfl

theorem replacePath_append (id : SpiffeId) {p q : String} (hp : checkPath p.toList = .ok ())
    (hq : checkPath q.toList = .ok ()) :
    (id.replacePath p >>= (·.appendPath q)) = .ok (join id.trustDomain.name (p ++ q)) := by
  unfold replacePath ofPath
  rw [hp]
  show (checkPath q.toList >>= fun _ => _) = _
  rw [hq, ← extend_join]
  rfl

theorem appendSegments_append (id : SpiffeId) (xs ys : List String) :
    (id.appendSegments xs >>= (·.appendSegments ys)) = id.appendSegments (xs ++ ys) := by
  unfold appendSegments extend
  simp only [List.map_append, joinSegments_append, bind_assoc, pure_bind, String.ofList_append,
    String.append_assoc]

/-- **Operations on paths compose.** A path after a path is a path, and adding the two one after the
other gives the identity that adding them at once gives, after the identity's own path or in its
place. Lists of segments, right or wrong, give the same answer whether they are added one after
the other or at once. Replacing the path of an identity is building in the trust domain that the
operations started in. -/
theorem operations_compose {td : TrustDomain} {id : SpiffeId} (h : Reach td id) :
    (∀ p q : String, checkPath p.toList = .ok () → checkPath q.toList = .ok () →
      checkPath (p ++ q).toList = .ok () ∧
      (∃ id', (id.appendPath p >>= (·.appendPath q)) = .ok id' ∧
        id.appendPath (p ++ q) = .ok id') ∧
      ∃ id', (id.replacePath p >>= (·.appendPath q)) = .ok id' ∧
        id.replacePath (p ++ q) = .ok id') ∧
    (∀ xs ys : List String,
      (id.appendSegments xs >>= (·.appendSegments ys)) = id.appendSegments (xs ++ ys)) ∧
    id.trustDomain = td ∧ (∀ p : String, id.replacePath p = ofPath td p) ∧
    ∀ xs : List String, id.replaceSegments xs = ofSegments td xs := by
  have hdomain := trustDomain_of_reach h
  refine ⟨fun p q hp hq => ?_, appendSegments_append id, hdomain, ?_, ?_⟩
  · have hpq : checkPath (p ++ q).toList = .ok () := by
      rw [String.toList_append]
      exact checkPath_append hp hq
    refine ⟨hpq, ⟨_, appendPath_append id hp hq, ?_⟩, _, replacePath_append id hp hq, ?_⟩
    · exact ok_of_check.mpr ⟨hpq, rfl⟩
    · exact ok_of_check.mpr ⟨hpq, rfl⟩
  · intro p
    rw [replacePath, hdomain]
  · intro xs
    rw [replaceSegments, hdomain]

/-- Two paths below an identity, and two lists of segments whose first error is in the first. -/
theorem operations_compose_below :
    Reach ⟨"acme.io"⟩ ⟨"spiffe://acme.io/ns", 16⟩ ∧ checkPath "/web".toList = .ok () ∧
    checkPath "/v1".toList = .ok () ∧
    (SpiffeId.appendPath ⟨"spiffe://acme.io/ns", 16⟩ "/web" >>= (·.appendPath "/v1")) =
      .ok ⟨"spiffe://acme.io/ns/web/v1", 16⟩ ∧
    (SpiffeId.appendSegments ⟨"spiffe://acme.io/ns", 16⟩ ["db", ".."] >>=
      (·.appendSegments [""])) = .error .dotSegment := by
  have hweb : checkPath "/web".toList = .ok () := by decide +kernel
  have hv1 : checkPath "/v1".toList = .ok () := by decide +kernel
  obtain ⟨hpaths, hsegments, -⟩ := operations_compose reach_ns
  obtain ⟨-, ⟨id', hadded, honce⟩, -⟩ := hpaths "/web" "/v1" hweb hv1
  have hresult : SpiffeId.appendPath ⟨"spiffe://acme.io/ns", 16⟩ ("/web" ++ "/v1") =
      .ok ⟨"spiffe://acme.io/ns/web/v1", 16⟩ := by decide +kernel
  have hrefused : SpiffeId.appendSegments ⟨"spiffe://acme.io/ns", 16⟩ (["db", ".."] ++ [""]) =
      .error .dotSegment := by decide +kernel
  refine ⟨reach_ns, hweb, hv1, ?_, (hsegments _ _).trans hrefused⟩
  rw [hadded, ← honce, hresult]

end SpiffeId
end WorkloadIdentity
