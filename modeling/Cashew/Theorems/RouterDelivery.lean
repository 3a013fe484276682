import Cashew.Network.Router

/-!
# What a router delivers

A response is matched to a pending request by its request id alone, and its
data is checked against the content hash that the response itself carries. So a
delivered piece of content is the requested one exactly if the response names
the requested hash. `deliveries_match_iff` says this for whole runs.

The content hash requested under an id is kept in a history variable beside the
router: it is written by the request calls and read by nobody.
-/

namespace Cashew.Theorems.RouterDelivery

open Cashew Cashew.Lib

/-! ## A router with its history -/

/-- The request calls among the effects of a step, as `(request id, content
hash)`. -/
def issuedOf (effects : List RouterEffect) : List (Hash256 × ContentHash) :=
  effects.filterMap fun
    | .issued requestId contentHash => some (requestId, contentHash)
    | _ => none

/-- The invocations of `content_received_callback_` among the effects of a step,
as `(request id, data)`. -/
def receivedOf (effects : List RouterEffect) : List (Hash256 × Bytes) :=
  effects.filterMap fun
    | .contentReceived requestId _ data => some (requestId, data)
    | _ => none

/-- A router and, for each request id, the content hash requested under it. -/
structure Tracked where
  router : Router
  requested : OrdMap Hash256 ContentHash

/-- Data handed to the callback, with the content hash its request asked for. -/
structure Delivery where
  requestId : Hash256
  requested : Option ContentHash
  data : Bytes
  deriving DecidableEq

def trackedMachine (H : Bytes → Hash256) : Machine Tracked (Clock × RouterInput) Delivery where
  step t input :=
    let (router, effects) := t.router.call H input.1 input.2
    ({ router
       requested := (issuedOf effects).foldl (fun log (id, c) => log.insert id c) t.requested },
     (receivedOf effects).map fun (requestId, data) =>
       { requestId, requested := t.requested.find? requestId, data })

/-- A new router, before any request. -/
def Tracked.fresh (localNodeId : NodeID) : Tracked where
  router := { localNodeId }
  requested := .empty

/-- The delivered data is what was asked for. -/
def Matches (H : Bytes → Hash256) (d : Delivery) : Prop :=
  ∃ c, d.requested = some c ∧ H d.data = c.hash

/-- A response that would be delivered names the content hash of the pending
request it answers. -/
def NamesRequested (H : Bytes → Hash256) (t : Tracked) (input : Clock × RouterInput) : Prop :=
  match input.2 with
  | .handleContentResponse response =>
    ∀ p, t.router.pendingRequests.find? response.requestId = some p →
      H response.contentData = response.contentHash.hash →
      t.router.verifies response = true →
      t.router.callbacks.contentReceived = true →
      response.contentHash = p.contentHash
  | _ => True

variable {H : Bytes → Hash256}

/-! ## What each call does to the pending requests -/

/-- Effects that neither issue a request nor deliver content. -/
structure Quiet (effects : List RouterEffect) : Prop where
  issued : issuedOf effects = []
  received : receivedOf effects = []

theorem Quiet.nil : Quiet [] := ⟨rfl, rfl⟩

theorem Quiet.flatMap {α : Type} {items : List α} {f : α → List RouterEffect}
    (h : ∀ a, Quiet (f a)) : Quiet (items.flatMap f) := by
  induction items with
  | nil => exact .nil
  | cons a rest ih =>
    refine ⟨?_, ?_⟩
    · rw [List.flatMap_cons, issuedOf, List.filterMap_append]
      exact List.append_eq_nil_iff.mpr ⟨(h a).issued, ih.issued⟩
    · rw [List.flatMap_cons, receivedOf, List.filterMap_append]
      exact List.append_eq_nil_iff.mpr ⟨(h a).received, ih.received⟩

theorem sendRequestToPeer_quiet (r : Router) (peerId : NodeID) (request : ContentRequest) :
    Quiet (r.sendRequestToPeer peerId request) := by
  unfold Router.sendRequestToPeer
  split
  · exact ⟨rfl, rfl⟩
  · exact .nil

theorem sendResponseToPeer_quiet (r : Router) (peerId : NodeID) (response : ContentResponse) :
    Quiet (r.sendResponseToPeer peerId response) := by
  unfold Router.sendResponseToPeer
  split
  · exact ⟨rfl, rfl⟩
  · exact .nil

theorem notifyNotFound_quiet (r : Router) (id : Hash256) (c : ContentHash) :
    Quiet (r.notifyNotFound id c) := by
  unfold Router.notifyNotFound
  split
  · exact ⟨rfl, rfl⟩
  · exact .nil

/-- A step that records one new request and returns its id. -/
def Records (old new : OrdMap Hash256 PendingRequest) (effects : List RouterEffect) : Prop :=
  ∃ id p rest, new = old.insert id p ∧ effects = .issued id p.contentHash :: rest ∧ Quiet rest

/-- A step that at most drops requests. -/
structure Drops (old new : OrdMap Hash256 PendingRequest) (effects : List RouterEffect) :
    Prop where
  kept : ∀ id p, new.find? id = some p → old.find? id = some p
  quiet : Quiet effects

theorem requestContent_records (r : Router) (clock : Clock) (random : FixedBytes 16)
    (c : ContentHash) (hops : UInt8) :
    Records r.pendingRequests (r.requestContent H clock random c hops).1.pendingRequests
      (r.requestContent H clock random c hops).2 :=
  ⟨H (r.requestIdInput random), _, _, rfl, rfl, sendRequestToPeer_quiet _ _ _⟩

theorem requestContentWithOnionRouting_records (r : Router) (clock : Clock)
    (random : FixedBytes 16) (c : ContentHash) (path : List NodeID) :
    Records r.pendingRequests
      (r.requestContentWithOnionRouting H clock random c path).1.pendingRequests
      (r.requestContentWithOnionRouting H clock random c path).2 := by
  cases path with
  | nil => exact ⟨H (r.requestIdInput random), _, _, rfl, rfl, .nil⟩
  | cons firstHop rest =>
    exact ⟨H (r.requestIdInput random), _, _, rfl, rfl, sendRequestToPeer_quiet _ _ _⟩

theorem Drops.unchanged {pending : OrdMap Hash256 PendingRequest} {effects : List RouterEffect}
    (h : Quiet effects) : Drops pending pending effects := ⟨fun _ _ => id, h⟩

theorem handlePlainRequest_drops (r : Router) (clock : Clock) (request : ContentRequest) :
    Drops r.pendingRequests (r.handlePlainRequest clock request).1.pendingRequests
      (r.handlePlainRequest clock request).2 := by
  unfold Router.handlePlainRequest
  dsimp only
  split
  · split
    · exact .unchanged .nil
    · exact .unchanged (sendResponseToPeer_quiet _ _ _)
  · split
    · exact .unchanged .nil
    · split
      · exact .unchanged .nil
      · exact .unchanged (sendRequestToPeer_quiet _ _ _)

/-- Somebody else's request leaves the pending ones alone, however many layers
it is wrapped in. -/
theorem handleContentRequest_drops (r : Router) (clock : Clock) (request : ContentRequest) :
    Drops r.pendingRequests (r.handleContentRequest H clock request).1.pendingRequests
      (r.handleContentRequest H clock request).2 := by
  fun_induction Router.handleContentRequest H r clock request with
  | case1 => exact .unchanged .nil
  | case2 r request r' _ hlayers => exact handlePlainRequest_drops r' clock request
  | case3 => exact .unchanged .nil
  | case4 r request r' _ layer _ hlayers inner hinner next hnext ih => exact ih
  | case5 => exact .unchanged .nil
  | case6 => exact .unchanged .nil

/-- Erasing keys only loses entries. -/
theorem find?_of_erase_all (ids : List Hash256) {pending : OrdMap Hash256 PendingRequest}
    {id : Hash256} {p : PendingRequest}
    (h : (ids.foldl OrdMap.erase pending).find? id = some p) : pending.find? id = some p := by
  rw [OrdMap.find?_foldl_erase] at h
  split at h
  · cases h
  · exact h

theorem cleanupTimedOutRequests_drops (r : Router) (clock : Clock) :
    Drops r.pendingRequests (r.cleanupTimedOutRequests clock).1.pendingRequests
      (r.cleanupTimedOutRequests clock).2 :=
  ⟨fun _ _ => find?_of_erase_all _, Quiet.flatMap fun _ => notifyNotFound_quiet _ _ _⟩

/-- Every call but a response records a request or at most drops some. -/
theorem call_cases (r : Router) (clock : Clock) (input : RouterInput)
    (hother : ∀ response, input ≠ .handleContentResponse response) :
    Records r.pendingRequests (r.call H clock input).1.pendingRequests (r.call H clock input).2 ∨
      Drops r.pendingRequests (r.call H clock input).1.pendingRequests
        (r.call H clock input).2 := by
  cases input with
  | handleContentResponse response => exact absurd rfl (hother response)
  | requestContent random c hops => exact .inl (requestContent_records r clock random c hops)
  | requestContentWithOnionRouting random c path =>
    exact .inl (requestContentWithOnionRouting_records r clock random c path)
  | handleContentRequest request => exact .inr (handleContentRequest_drops r clock request)
  | updateRoutingTable => exact .inr (.unchanged .nil)
  | editRoutingTable => exact .inr (.unchanged .nil)
  | advertiseLocalContent => exact .inr (.unchanged .nil)
  | removeLocalContent => exact .inr (.unchanged .nil)
  | cancelRequest requestId =>
    exact .inr ⟨fun _ _ => find?_of_erase_all [requestId], .nil⟩
  | cleanupTimedOutRequests => exact .inr (cleanupTimedOutRequests_drops r clock)
  | updateStatistics => exact .inr (cleanupTimedOutRequests_drops _ _)
  | setCallbacks => exact .inr (.unchanged .nil)

/-- A response that reaches the callback. -/
structure Delivers (H : Bytes → Hash256) (r : Router) (response : ContentResponse) : Prop where
  pending : ∃ p, r.pendingRequests.find? response.requestId = some p
  hash : H response.contentData = response.contentHash.hash
  verified : r.verifies response = true
  callback : r.callbacks.contentReceived = true

/-- A response drops at most the request it names. -/
theorem handleContentResponse_kept (r : Router) (response : ContentResponse) (id : Hash256)
    (p : PendingRequest)
    (h : (r.handleContentResponse H response).1.pendingRequests.find? id = some p) :
    r.pendingRequests.find? id = some p := by
  unfold Router.handleContentResponse at h
  dsimp only at h
  split at h
  · exact h
  · split at h
    · exact h
    · split at h
      · exact h
      · exact find?_of_erase_all [response.requestId] h

/-- One that does not reach the callback causes nothing else. -/
theorem handleContentResponse_silent {r : Router} {response : ContentResponse}
    (h : ¬ Delivers H r response) : (r.handleContentResponse H response).2 = [] := by
  unfold Router.handleContentResponse
  dsimp only
  split
  · rfl
  · rename_i p hfind
    split
    · rfl
    · rename_i hhash
      split
      · rfl
      · rename_i hverify
        -- past all checks only a missing callback is left
        refine if_neg fun hcallback => h ⟨⟨p, hfind⟩, not_not.mp hhash, ?_, hcallback⟩
        rw [Bool.not_eq_true, Bool.not_eq_false'] at hverify
        exact hverify

theorem handleContentResponse_of_not {r : Router} {response : ContentResponse}
    (h : ¬ Delivers H r response) :
    Drops r.pendingRequests (r.handleContentResponse H response).1.pendingRequests
      (r.handleContentResponse H response).2 :=
  ⟨handleContentResponse_kept r response, handleContentResponse_silent h ▸ .nil⟩

/-- One that does reach it hands over its own data. -/
theorem handleContentResponse_of_delivers {r : Router} {response : ContentResponse}
    (h : Delivers H r response) :
    (r.handleContentResponse H response).1.pendingRequests =
        r.pendingRequests.erase response.requestId ∧
      (r.handleContentResponse H response).2 =
        [.contentReceived response.requestId response.contentHash response.contentData] := by
  obtain ⟨p, hfind⟩ := h.pending
  have hverify : Router.verifies { r with responsesReceived := r.responsesReceived + 1 } response =
      true := h.verified
  unfold Router.handleContentResponse
  dsimp only
  rw [hfind]
  dsimp only
  rw [if_neg (not_not.mpr h.hash), hverify, if_neg (by decide), if_pos h.callback]
  exact ⟨rfl, rfl⟩

/-! ## The history variable follows the pending requests -/

/-- Every pending request asks for the hash on record under its id. -/
def Logged (t : Tracked) : Prop :=
  ∀ id p, t.router.pendingRequests.find? id = some p → t.requested.find? id = some p.contentHash

theorem Logged.of_drops {t : Tracked} (h : Logged t) {clock : Clock} {input : RouterInput}
    (hdrops : Drops t.router.pendingRequests (t.router.call H clock input).1.pendingRequests
      (t.router.call H clock input).2) :
    Logged ((trackedMachine H).step t (clock, input)).1 := by
  intro id p hfind
  show ((issuedOf (t.router.call H clock input).2).foldl _ t.requested).find? id = _
  rw [hdrops.quiet.issued]
  exact h id p (hdrops.kept id p hfind)

theorem Logged.of_records {t : Tracked} (h : Logged t) {clock : Clock} {input : RouterInput}
    (hrecords : Records t.router.pendingRequests (t.router.call H clock input).1.pendingRequests
      (t.router.call H clock input).2) :
    Logged ((trackedMachine H).step t (clock, input)).1 := by
  obtain ⟨newId, newP, rest, hnew, heffects, hquiet⟩ := hrecords
  have hissued : issuedOf (t.router.call H clock input).2 = [(newId, newP.contentHash)] := by
    rw [heffects]
    exact congrArg ((newId, newP.contentHash) :: ·) hquiet.issued
  intro id p hfind
  have hfind' : (t.router.call H clock input).1.pendingRequests.find? id = some p := hfind
  show ((issuedOf (t.router.call H clock input).2).foldl _ t.requested).find? id = _
  rw [hissued]
  show (t.requested.insert newId newP.contentHash).find? id = some p.contentHash
  rw [hnew, OrdMap.find?_insert] at hfind'
  rw [OrdMap.find?_insert]
  by_cases hid : newId = id
  · rw [if_pos hid] at hfind' ⊢
    cases hfind'
    rfl
  · rw [if_neg hid] at hfind' ⊢
    exact h id p hfind'

theorem Logged.of_delivers {t : Tracked} (h : Logged t) {clock : Clock}
    {response : ContentResponse} (hdelivers : Delivers H t.router response) :
    Logged ((trackedMachine H).step t (clock, .handleContentResponse response)).1 := by
  obtain ⟨hpending, heffects⟩ := handleContentResponse_of_delivers hdelivers
  intro id p hfind
  have hfind' : (t.router.handleContentResponse H response).1.pendingRequests.find? id =
      some p := hfind
  show ((issuedOf (t.router.handleContentResponse H response).2).foldl _ t.requested).find? id = _
  rw [heffects]
  rw [hpending] at hfind'
  exact h id p (find?_of_erase_all [response.requestId] hfind')

theorem step_logged (t : Tracked) (input : Clock × RouterInput) (h : Logged t) :
    Logged ((trackedMachine H).step t input).1 := by
  obtain ⟨clock, call⟩ := input
  by_cases hresponse : ∃ response, call = .handleContentResponse response
  · obtain ⟨response, rfl⟩ := hresponse
    by_cases hdelivers : Delivers H t.router response
    · exact h.of_delivers hdelivers
    · exact h.of_drops (handleContentResponse_of_not hdelivers)
  · rcases call_cases (H := H) t.router clock call (not_exists.mp hresponse) with hrecords | hdrops
    · exact h.of_records hrecords
    · exact h.of_drops hdrops

/-! ## Deliveries -/

/-- A step without a delivery has nothing to match. -/
theorem outputs_of_received_nil {t : Tracked} {clock : Clock} {call : RouterInput}
    (h : receivedOf (t.router.call H clock call).2 = []) :
    ((trackedMachine H).step t (clock, call)).2 = [] := by
  show (receivedOf (t.router.call H clock call).2).map _ = []
  rw [h]
  rfl

/-- Only responses deliver. -/
theorem outputs_of_other {t : Tracked} {clock : Clock} {call : RouterInput}
    (hother : ∀ response, call ≠ .handleContentResponse response) :
    ((trackedMachine H).step t (clock, call)).2 = [] := by
  apply outputs_of_received_nil
  rcases call_cases (H := H) t.router clock call hother with hrecords | hdrops
  · obtain ⟨_, _, _, _, heffects, hquiet⟩ := hrecords
    rw [heffects]
    exact hquiet.received
  · exact hdrops.quiet.received

/-- A delivered response hands over its data under the hash on record. -/
theorem outputs_of_delivers {t : Tracked} (h : Logged t) {clock : Clock}
    {response : ContentResponse} (hdelivers : Delivers H t.router response) {p : PendingRequest}
    (hfind : t.router.pendingRequests.find? response.requestId = some p) :
    ((trackedMachine H).step t (clock, .handleContentResponse response)).2 =
      [{ requestId := response.requestId
         requested := some p.contentHash
         data := response.contentData }] := by
  show (receivedOf (t.router.handleContentResponse H response).2).map _ = _
  rw [(handleContentResponse_of_delivers hdelivers).2, ← h response.requestId p hfind]
  rfl

/-- What one step delivers is what was asked for exactly when the response names
the requested hash. -/
theorem step_matches_iff (t : Tracked) (input : Clock × RouterInput) (h : Logged t) :
    (∀ d ∈ ((trackedMachine H).step t input).2, Matches H d) ↔ NamesRequested H t input := by
  obtain ⟨clock, call⟩ := input
  by_cases hresponse : ∃ response, call = .handleContentResponse response
  · obtain ⟨response, rfl⟩ := hresponse
    -- delivered data hashes to what the response names: it matches if that was asked for
    by_cases hdelivers : Delivers H t.router response
    · obtain ⟨p, hfind⟩ := hdelivers.pending
      rw [outputs_of_delivers h hdelivers hfind]
      constructor
      · intro hmatches p' hfind' _ _ _
        rw [hfind] at hfind'
        cases hfind'
        obtain ⟨c, hc, hdata⟩ := hmatches _ List.mem_cons_self
        cases hc
        exact ContentHash.hash_injective (hdelivers.hash.symm.trans hdata)
      · intro hnames d hd
        rw [List.mem_singleton.mp hd]
        have hsame := hnames p hfind hdelivers.hash hdelivers.verified hdelivers.callback
        exact ⟨p.contentHash, rfl, hsame ▸ hdelivers.hash⟩
    · have hdrops := handleContentResponse_of_not hdelivers
      have hnone : ((trackedMachine H).step t (clock, .handleContentResponse response)).2 = [] :=
        outputs_of_received_nil hdrops.quiet.received
      rw [hnone]
      constructor
      · intro _ p hfind hhash hverified hcallback
        exact absurd ⟨⟨p, hfind⟩, hhash, hverified, hcallback⟩ hdelivers
      · intro _ d hd
        cases hd
  -- only a response delivers
  · have hother := not_exists.mp hresponse
    rw [outputs_of_other hother]
    constructor
    · intro _
      unfold NamesRequested
      split
      · rename_i response heq
        exact absurd heq (hother response)
      · trivial
    · intro _ d hd
      cases hd

/-- **What is delivered is what was asked for**, in every run of a router from
its construction on, exactly when each response that reaches the callback names
the content hash of the pending request it answers. -/
theorem deliveries_match_iff (H : Bytes → Hash256) (localNodeId : NodeID)
    (inputs : List (Clock × RouterInput)) :
    (∀ d ∈ ((trackedMachine H).run (Tracked.fresh localNodeId) inputs).2, Matches H d) ↔
      (trackedMachine H).StepsMeet (NamesRequested H) (Tracked.fresh localNodeId) inputs := by
  refine (trackedMachine H).run_outputs_iff (P := Logged) step_logged step_matches_iff ?_ inputs
  intro id p hfind
  cases hfind

/-- A router with a callback asks for the content with hash `sampleHash [1]` and
gets `[2]`, under the hash of `[2]`, from some peer that knows the request id. -/
def wrongContentRun : List (Clock × RouterInput) :=
  let router : Router := { localNodeId := sampleNode 1 }
  [(.still sampleTime, .setCallbacks { contentReceived := true }),
    (.still sampleTime, .requestContent FixedBytes.zero ⟨sampleHash [1]⟩ 8),
    (.still sampleTime, .handleContentResponse
      { contentHash := ⟨sampleHash [2]⟩
        contentData := [2]
        hostingNode := sampleNode 2
        requestId := sampleHash (router.requestIdInput FixedBytes.zero)
        hopCount := 0
        signature := FixedBytes.zero })]

/-- The data is delivered, and it is not what was asked for. -/
theorem wrong_content_delivered :
    ¬ ∀ d ∈ ((trackedMachine sampleHash).run (Tracked.fresh (sampleNode 1)) wrongContentRun).2,
      Matches sampleHash d := by
  have hrun : ((trackedMachine sampleHash).run (Tracked.fresh (sampleNode 1)) wrongContentRun).2.map
      (fun d => (d.requested, d.data)) = [(some ⟨sampleHash [1]⟩, [2])] := by
    decide
  intro hall
  obtain ⟨d, hd, hpair⟩ := List.mem_map.mp (hrun ▸ List.mem_singleton_self _)
  obtain ⟨c, hc, hdata⟩ := hall d hd
  rw [Prod.mk.injEq] at hpair
  rw [hpair.2] at hdata
  rw [hpair.1] at hc
  cases hc
  exact absurd hdata (by decide)

end Cashew.Theorems.RouterDelivery
