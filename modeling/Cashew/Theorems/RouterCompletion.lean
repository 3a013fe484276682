import Cashew.Logic.Router
import Cashew.Theorems.RouterDelivery

/-!
# A request completes at most once

A request is over when its content was received or when it is reported as not
found. Responses (replayed ones too), cancellations and timeouts reach for the
same pending entry in any order. Each of the two notifications is made for an
entry that is in the table and takes the entry out, so that none can follow; the
rule for a whole run is `Machine.run_closes_nodup`.
-/

namespace Cashew.Theorems.RouterCompletion

open Cashew Cashew.Lib Cashew.Theorems.RouterDelivery

/-- The request a call opens. -/
def issuedId : RouterEffect → Option Hash256
  | .issued requestId _ => some requestId
  | _ => none

/-- The request a notification is about: content received, or not found. -/
def completedId : RouterEffect → Option Hash256
  | .contentReceived requestId _ _ => some requestId
  | .contentNotFound requestId _ => some requestId
  | _ => none

/-- A step between two tables of pending requests opens and closes requests as it
should. -/
def Settled (old new : OrdMap Hash256 PendingRequest) (effects : List RouterEffect) : Prop :=
  Machine.Settles issuedId completedId (fun id => old.find? id ≠ none)
    (fun id => new.find? id ≠ none) effects

variable {H : Bytes → Hash256}

/-! ## One call -/

theorem sendRequestToPeer_completes (r : Router) (peer : NodeID) (request : ContentRequest) :
    (r.sendRequestToPeer peer request).filterMap completedId = [] := by
  unfold Router.sendRequestToPeer
  split
  · rfl
  · rfl

theorem handleContentRequest_completes (r : Router) (clock : Clock) (request : ContentRequest) :
    (r.handleContentRequest H clock request).2.filterMap completedId = [] := by
  rcases Router.handleContentRequest_cases (H := H) r clock request with
    ⟨_, _, _, hsent⟩ | hnone | ⟨_, _, hresponse⟩
  · rw [hsent]
    rfl
  · rw [hnone]
    rfl
  · rw [hresponse]
    rfl

/-- A step that notifies nobody and at most drops requests. -/
theorem Settled.of_quiet {old new : OrdMap Hash256 PendingRequest} {effects : List RouterEffect}
    (hkept : ∀ id p, new.find? id = some p → old.find? id = some p)
    (hquiet : effects.filterMap completedId = []) : Settled old new effects := by
  refine ⟨hquiet ▸ List.nodup_nil, ?_, ?_⟩
  · intro id hid
    rw [hquiet] at hid
    cases hid
  · intro id hid
    obtain ⟨p, hp⟩ := Option.ne_none_iff_exists'.mp hid
    refine .inl ?_
    rw [hkept id p hp]
    exact Option.some_ne_none p

theorem Settled.unchanged {pending : OrdMap Hash256 PendingRequest} :
    Settled pending pending [] :=
  .of_quiet (fun _ _ => id) rfl

/-- A step that opens one request and says nothing about any. -/
theorem Settled.of_insert {old : OrdMap Hash256 PendingRequest} {id : Hash256}
    {p : PendingRequest} {c : ContentHash} {rest : List RouterEffect}
    (hquiet : rest.filterMap completedId = []) :
    Settled old (old.insert id p) (.issued id c :: rest) := by
  have hnone : (RouterEffect.issued id c :: rest).filterMap completedId = [] := hquiet
  refine ⟨hnone ▸ List.nodup_nil, ?_, ?_⟩
  · intro k hk
    rw [hnone] at hk
    cases hk
  · intro k hk
    rw [OrdMap.find?_insert] at hk
    by_cases hid : id = k
    · subst hid
      exact .inr List.mem_cons_self
    · rw [if_neg hid] at hk
      exact .inl hk

/-- A step that takes some requests out and says of each at most once that it is
over. -/
theorem Settled.of_erase (ids : List Hash256) {old : OrdMap Hash256 PendingRequest}
    {effects : List RouterEffect} (hnodup : ids.Nodup) (hold : ∀ id ∈ ids, old.find? id ≠ none)
    (heffects : (effects.filterMap completedId).Sublist ids) :
    Settled old (ids.foldl OrdMap.erase old) effects := by
  refine ⟨heffects.nodup hnodup, ?_, ?_⟩
  · intro id hid
    have hmem : id ∈ ids := heffects.subset hid
    refine ⟨hold id hmem, ?_⟩
    rw [OrdMap.find?_foldl_erase, if_pos hmem]
    exact not_not.mpr rfl
  · intro id hid
    rw [OrdMap.find?_foldl_erase] at hid
    split at hid
    · exact absurd rfl hid
    · exact .inl hid

/-- A response closes the request it is delivered for. -/
theorem handleContentResponse_settled (r : Router) (response : ContentResponse) :
    Settled r.pendingRequests (r.handleContentResponse H response).1.pendingRequests
      (r.handleContentResponse H response).2 := by
  by_cases h : Delivers H r response
  · obtain ⟨hpending, heffects⟩ := handleContentResponse_of_delivers h
    obtain ⟨p, hfind⟩ := h.pending
    rw [hpending, heffects]
    refine .of_erase [response.requestId] (List.nodup_singleton _) ?_
      (List.Sublist.refl _)
    intro id hid
    rw [List.mem_singleton.mp hid, hfind]
    exact Option.some_ne_none p
  · refine .of_quiet (handleContentResponse_kept r response) ?_
    rw [handleContentResponse_silent h]
    rfl

/-- Only the ids handed to it are reported, in their order. -/
theorem notifyNotFound_completes (r : Router) (expired : List (Hash256 × PendingRequest)) :
    ((expired.flatMap fun (id, p) => r.notifyNotFound id p.contentHash).filterMap
      completedId).Sublist (expired.map Prod.fst) := by
  induction expired with
  | nil => exact List.Sublist.refl _
  | cons entry rest ih =>
    have hentry : ((r.notifyNotFound entry.1 entry.2.contentHash).filterMap completedId).Sublist
        [entry.1] := by
      unfold Router.notifyNotFound
      split
      · exact List.Sublist.refl _
      · exact List.nil_sublist _
    rw [List.flatMap_cons, List.filterMap_append]
    exact hentry.append ih

/-- Entries chosen by a test that may look at their position. -/
theorem filter_zipIdx_sublist {α : Type} (entries : List α) (keep : α × Nat → Bool) :
    ((entries.zipIdx.filter keep).map Prod.fst).Sublist entries := by
  have hsub := (List.filter_sublist (p := keep) (l := entries.zipIdx)).map Prod.fst
  rwa [List.zipIdx_map_fst] at hsub

/-- Each expired entry is reported once and goes. -/
theorem cleanupTimedOutRequests_settled (r : Router) (clock : Clock) :
    Settled r.pendingRequests (r.cleanupTimedOutRequests clock).1.pendingRequests
      (r.cleanupTimedOutRequests clock).2 := by
  refine .of_erase _ ?_ ?_ (notifyNotFound_completes r _)
  · exact ((filter_zipIdx_sublist _ _).map Prod.fst).nodup r.pendingRequests.keys_nodup
  · intro id hid
    obtain ⟨⟨_, p⟩, hmem, rfl⟩ := List.mem_map.mp hid
    have hentry := (filter_zipIdx_sublist _ _).subset hmem
    rw [OrdMap.mem_entries.mp hentry]
    exact Option.some_ne_none p

/-- Every call opens and closes requests as it should. -/
theorem call_settled (r : Router) (clock : Clock) (input : RouterInput) :
    Settled r.pendingRequests (r.call H clock input).1.pendingRequests
      (r.call H clock input).2 := by
  cases input with
  | requestContent random c hops => exact .of_insert (sendRequestToPeer_completes _ _ _)
  | requestContentWithOnionRouting random c path =>
    cases path with
    | nil => exact .of_insert rfl
    | cons firstHop rest => exact .of_insert (sendRequestToPeer_completes _ _ _)
  | handleContentRequest request =>
    exact .of_quiet (handleContentRequest_drops r clock request).kept
      (handleContentRequest_completes r clock request)
  | handleContentResponse response => exact handleContentResponse_settled r response
  | cancelRequest requestId => exact .of_quiet (fun _ _ => find?_of_erase_all [requestId]) rfl
  | cleanupTimedOutRequests => exact cleanupTimedOutRequests_settled r clock
  | updateStatistics => exact cleanupTimedOutRequests_settled _ _
  | updateRoutingTable => exact .unchanged
  | editRoutingTable => exact .unchanged
  | advertiseLocalContent => exact .unchanged
  | removeLocalContent => exact .unchanged
  | setCallbacks => exact .unchanged

/-! ## Whole runs -/

/-- **A request completes at most once.** In every run of a router from its
construction on whose request ids are distinct, the notifications, received and
not found together, name each request at most once, and only issued ones. -/
theorem completes_once (H : Bytes → Hash256) (localNodeId : NodeID)
    (inputs : List (Clock × RouterInput))
    (hdistinct : (((routerMachine H).run { localNodeId } inputs).2.filterMap issuedId).Nodup) :
    (((routerMachine H).run { localNodeId } inputs).2.filterMap completedId).Nodup ∧
      ∀ id ∈ ((routerMachine H).run { localNodeId } inputs).2.filterMap completedId,
        id ∈ ((routerMachine H).run { localNodeId } inputs).2.filterMap issuedId := by
  have hrun := (routerMachine H).run_closes_nodup
    (fun r id => r.pendingRequests.find? id ≠ none)
    (fun r input => call_settled r input.1 input.2) hdistinct fun _ _ hlive => hlive rfl
  refine ⟨hrun.1, fun id hid => (hrun.2 id hid).resolve_left fun hlive => hlive rfl⟩

/-- A request, its response twice, then a timeout. -/
def replayRun : List (Clock × RouterInput) :=
  let router : Router := { localNodeId := sampleNode 1 }
  let response : ContentResponse :=
    { contentHash := ⟨sampleHash [1]⟩
      contentData := [1]
      hostingNode := sampleNode 2
      requestId := sampleHash (router.requestIdInput FixedBytes.zero)
      hopCount := 0
      signature := FixedBytes.zero }
  [(.still sampleTime, .setCallbacks { contentReceived := true, contentNotFound := true }),
    (.still sampleTime, .requestContent FixedBytes.zero ⟨sampleHash [1]⟩ 8),
    (.still sampleTime, .handleContentResponse response),
    (.still sampleTime, .handleContentResponse response),
    (.still ⟨2400, by decide⟩, .cleanupTimedOutRequests)]

theorem replay_completes_once :
    (((routerMachine sampleHash).run { localNodeId := sampleNode 1 } replayRun).2.filterMap
        completedId).length = 1 ∧
      (((routerMachine sampleHash).run { localNodeId := sampleNode 1 } replayRun).2.filterMap
        completedId).Nodup :=
  ⟨by decide, (completes_once sampleHash (sampleNode 1) replayRun (by decide)).1⟩

end Cashew.Theorems.RouterCompletion
