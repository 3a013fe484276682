import Cashew.Logic.Router

/-!
# Requests without a route

`select_best_host` says that there is no usable host by yielding nothing; its
caller turns that into a value-initialised `NodeID`, and the two callers above
ask whether the id's array is empty. An array of 32 bytes never is, so a request
without a route is sent to the zero id and nobody is told that it was not found.
`no_route_iff` says that this is the only thing that goes wrong: with a usable
host the request goes to one, and the promises fail exactly where there is none.
-/

namespace Cashew.Theorems.RouterRoutes

open Cashew Cashew.Lib

/-! ## Usable hosts -/

/-- The table lists the node for the content, knows it, has heard of it recently
and finds it reliable enough. -/
def UsableHost (t : RoutingTable) (clock : Clock) (contentHash : ContentHash) (host : NodeID) :
    Prop :=
  ∃ i e, (t.findHostsForContent contentHash)[i]? = some host ∧ t.entries.find? host = some e ∧
    e.isStale (clock.read i) = false ∧ ¬ e.reliabilityScore < RoutingTable.minReliabilityScore

/-- One round keeps the best so far or takes a usable host. -/
theorem considerHost_cases (t : RoutingTable) (now : Time) (best : NodeID × Float32)
    (host : NodeID) :
    t.considerHost now best host = best ∨
      ((t.considerHost now best host).1 = host ∧ ∃ e, t.entries.find? host = some e ∧
        e.isStale now = false ∧ ¬ e.reliabilityScore < RoutingTable.minReliabilityScore) := by
  unfold RoutingTable.considerHost
  cases hentry : t.entries.find? host with
  | none => exact .inl rfl
  | some e =>
    dsimp only
    by_cases hskip : (e.isStale now || e.reliabilityScore < RoutingTable.minReliabilityScore) = true
    · rw [if_pos hskip]
      exact .inl rfl
    · rw [if_neg hskip]
      have hgood : e.isStale now = false ∧
          ¬ e.reliabilityScore < RoutingTable.minReliabilityScore := by
        rw [Bool.or_eq_true, decide_eq_true_iff, not_or, Bool.not_eq_true] at hskip
        exact hskip
      split
      · exact .inr ⟨rfl, e, rfl, hgood⟩
      · exact .inl rfl

/-- The loop ends with the value it started from or with a usable host. -/
theorem considerHost_foldl (t : RoutingTable) (clock : Clock) (contentHash : ContentHash)
    (start : NodeID × Float32) :
    let best := (t.findHostsForContent contentHash).zipIdx.foldl
      (fun best (host, i) => t.considerHost (clock.read i) best host) start
    best = start ∨ UsableHost t clock contentHash best.1 := by
  refine List.foldlRecOn _ _
    (motive := fun best => best = start ∨ UsableHost t clock contentHash best.1) (.inl rfl) ?_
  intro best hbest p hp
  obtain ⟨host, i⟩ := p
  have hlisted := List.mem_zipIdx_iff_getElem?.mp hp
  rcases considerHost_cases t (clock.read i) best host with hsame | ⟨hhost, e, hentry, hgood⟩
  · dsimp only
    rw [hsame]
    exact hbest
  · refine .inr ⟨i, e, ?_, ?_, hgood⟩
    · rw [hhost]
      exact hlisted
    · rw [hhost]
      exact hentry

/-- A selected host is a usable one. -/
theorem usable_of_selectBestHost {t : RoutingTable} {clock : Clock} {contentHash : ContentHash}
    {host : NodeID} (h : t.selectBestHost clock contentHash = some host) :
    UsableHost t clock contentHash host := by
  unfold RoutingTable.selectBestHost at h
  split at h
  · cases h
  · rename_i first rest hhosts
    dsimp only at h
    split at h
    · cases h
    · rename_i hscore
      cases h
      have hbest := considerHost_foldl t clock contentHash (first, -1.0)
      rw [hhosts] at hbest
      rcases hbest with hstart | husable
      · -- the score the loop starts with counts as no host
        rw [hstart] at hscore
        exact absurd (show (-1.0 : Float32) < 0.0 by decide) hscore
      · exact husable

/-! ## The two callers -/

/-- What is promised of `request_content`: without a host nothing is sent and the
not-found callback is invoked, and what is sent goes to a usable host. -/
structure RequestOk (H : Bytes → Hash256) (r : Router) (clock : Clock) (random : FixedBytes 16)
    (contentHash : ContentHash) (hopLimit : UInt8) : Prop where
  unroutable : r.routingTable.selectBestHost (clock.after 1) contentHash = none →
    (∀ peer request, .sendRequest peer request ∉
      (r.requestContent H clock random contentHash hopLimit).2) ∧
    (r.callbacks.contentNotFound = true → ∃ requestId, .contentNotFound requestId contentHash ∈
      (r.requestContent H clock random contentHash hopLimit).2)
  usable : ∀ peer request, .sendRequest peer request ∈
      (r.requestContent H clock random contentHash hopLimit).2 →
    UsableHost r.routingTable (clock.after 1) contentHash peer

/-- What is promised of `handle_content_request`: nothing is forwarded for
content without a host, and what is forwarded goes to a usable host. -/
structure HandleOk (H : Bytes → Hash256) (r : Router) (clock : Clock) (request : ContentRequest) :
    Prop where
  unroutable : ∀ c, r.routingTable.selectBestHost clock c = none →
    ∀ peer fwd, .sendRequest peer fwd ∈ (r.handleContentRequest H clock request).2 →
      fwd.contentHash ≠ c
  usable : ∀ peer fwd, .sendRequest peer fwd ∈ (r.handleContentRequest H clock request).2 →
    UsableHost r.routingTable clock fwd.contentHash peer

variable {H : Bytes → Hash256}

/-- The branch of `request_content` that tells about a missing route is never
taken. -/
theorem requestContent_snd (r : Router) (clock : Clock) (random : FixedBytes 16)
    (c : ContentHash) (hops : UInt8) :
    ∃ request, (r.requestContent H clock random c hops).2 =
      .issued (H (r.requestIdInput random)) c ::
        r.sendRequestToPeer (r.selectNextHop (clock.after 1) c) request :=
  ⟨_, rfl⟩

theorem selectNextHop_of_some {r : Router} {clock : Clock} {c : ContentHash} {host : NodeID}
    (h : r.routingTable.selectBestHost clock c = some host) : r.selectNextHop clock c = host := by
  rw [Router.selectNextHop, h]
  rfl

theorem mem_sendRequestToPeer {r : Router} {peer peer' : NodeID} {request fwd : ContentRequest}
    (h : .sendRequest peer' fwd ∈ r.sendRequestToPeer peer request) : peer' = peer := by
  unfold Router.sendRequestToPeer at h
  split at h
  · cases List.mem_singleton.mp h
    rfl
  · cases h

theorem not_mem_sendRequestToPeer_notFound {r : Router} {peer : NodeID} {request : ContentRequest}
    {id : Hash256} {c : ContentHash} :
    .contentNotFound id c ∉ r.sendRequestToPeer peer request := by
  intro h
  unfold Router.sendRequestToPeer at h
  split at h
  · cases List.mem_singleton.mp h
  · cases h

/-- With a host, `request_content` does what is promised. -/
theorem requestOk_of_host {r : Router} {clock : Clock} {c : ContentHash} {host : NodeID}
    (hroute : r.routingTable.selectBestHost (clock.after 1) c = some host)
    (random : FixedBytes 16) (hops : UInt8) : RequestOk H r clock random c hops := by
  obtain ⟨request, heffects⟩ := requestContent_snd (H := H) r clock random c hops
  refine ⟨?_, ?_⟩
  · intro hnone
    rw [hroute] at hnone
    cases hnone
  · intro peer fwd hsent
    rw [heffects] at hsent
    rcases List.mem_cons.mp hsent with hissued | hsent
    · cases hissued
    · rw [mem_sendRequestToPeer hsent, selectNextHop_of_some hroute]
      exact usable_of_selectBestHost hroute

/-- Without one, only if nobody listens. -/
theorem requestOk_iff_of_none {r : Router} {clock : Clock} {c : ContentHash}
    (hroute : r.routingTable.selectBestHost (clock.after 1) c = none) (random : FixedBytes 16)
    (hops : UInt8) :
    RequestOk H r clock random c hops ↔
      r.callbacks.requestSend = false ∧ r.callbacks.contentNotFound = false := by
  obtain ⟨request, heffects⟩ := requestContent_snd (H := H) r clock random c hops
  constructor
  · intro hok
    obtain ⟨hsilent, htold⟩ := hok.unroutable hroute
    refine ⟨?_, ?_⟩
    · -- a callback to send with would have been used
      by_contra hcallback
      refine hsilent (r.selectNextHop (clock.after 1) c) request ?_
      rw [heffects, Router.sendRequestToPeer, if_pos (Bool.not_eq_false _ ▸ hcallback)]
      exact List.mem_cons_of_mem _ (List.mem_singleton_self _)
    · -- a not-found callback would not
      by_contra hcallback
      obtain ⟨id, hmem⟩ := htold (Bool.not_eq_false _ ▸ hcallback)
      rw [heffects] at hmem
      rcases List.mem_cons.mp hmem with hissued | hmem
      · cases hissued
      · exact not_mem_sendRequestToPeer_notFound hmem
  · rintro ⟨hsend, hnotFound⟩
    have hsilent : ∀ peer fwd, .sendRequest peer fwd ∉
        (r.requestContent H clock random c hops).2 := by
      intro peer fwd hsent
      rw [heffects, Router.sendRequestToPeer, hsend] at hsent
      cases List.mem_singleton.mp hsent
    refine ⟨fun _ => ⟨hsilent, ?_⟩, fun peer fwd hsent => absurd hsent (hsilent peer fwd)⟩
    intro hset
    rw [hnotFound] at hset
    cases hset

/-- `request_content` does what is promised if there is a host, or if nobody
listens. -/
theorem requestOk_iff (r : Router) (clock : Clock) (random : FixedBytes 16) (c : ContentHash)
    (hops : UInt8) :
    RequestOk H r clock random c hops ↔
      r.routingTable.selectBestHost (clock.after 1) c ≠ none ∨
        (r.callbacks.requestSend = false ∧ r.callbacks.contentNotFound = false) := by
  cases hroute : r.routingTable.selectBestHost (clock.after 1) c with
  | some host =>
    exact iff_of_true (requestOk_of_host hroute random hops) (.inl (Option.some_ne_none host))
  | none =>
    rw [requestOk_iff_of_none hroute]
    exact ⟨.inr, fun h => h.resolve_left fun hne => hne rfl⟩

/-- `handle_content_request` does what is promised if a request it hands on has a
host. -/
theorem handleOk_iff (r : Router) (clock : Clock) (request : ContentRequest) :
    HandleOk H r clock request ↔
      ∀ q, request.innermost H r.localNodeId = some q → r.Forwards q →
        r.routingTable.selectBestHost clock q.contentHash ≠ none := by
  constructor
  · intro hok q hq hforwards hnone
    refine hok.unroutable q.contentHash hnone (r.selectNextHop clock q.contentHash)
      (Router.forwarded q) ?_ rfl
    rw [Router.handleContentRequest_of_forwards hq hforwards]
    exact List.mem_singleton_self _
  · intro hroutes
    refine ⟨?_, ?_⟩
    · intro c hnone peer fwd hsent hc
      obtain ⟨q, hq, hforwards, _, rfl⟩ := Router.handleContentRequest_sends hsent
      refine hroutes q hq hforwards ?_
      rw [show q.contentHash = c from hc]
      exact hnone
    · intro peer fwd hsent
      obtain ⟨q, hq, hforwards, rfl, rfl⟩ := Router.handleContentRequest_sends hsent
      obtain ⟨host, hhost⟩ := Option.ne_none_iff_exists'.mp (hroutes q hq hforwards)
      rw [selectNextHop_of_some hhost]
      exact usable_of_selectBestHost hhost

/-- **A request without a route is not sent**, for every router, exactly if there
is a route: `request_content` keeps its promises if there is a usable host or if
neither callback is set, and `handle_content_request` keeps them if there is a
usable host for whatever it hands on. -/
theorem no_route_iff (H : Bytes → Hash256) (r : Router) (clock : Clock) :
    (∀ random contentHash hopLimit,
      RequestOk H r clock random contentHash hopLimit ↔
        r.routingTable.selectBestHost (clock.after 1) contentHash ≠ none ∨
          (r.callbacks.requestSend = false ∧ r.callbacks.contentNotFound = false)) ∧
    ∀ request, HandleOk H r clock request ↔
      ∀ q, request.innermost H r.localNodeId = some q → r.Forwards q →
        r.routingTable.selectBestHost clock q.contentHash ≠ none :=
  ⟨requestOk_iff r clock, handleOk_iff r clock⟩

/-- A router with callbacks whose table lists, for one content, a node of which
it knows nothing else. -/
def strandedRouter : Router where
  localNodeId := sampleNode 1
  routingTable := ({} : RoutingTable).advertiseContent (sampleNode 2) ⟨sampleHash [1]⟩
  callbacks := { contentNotFound := true, requestSend := true }

/-- Somebody's request for that content. -/
def strandedRequest : ContentRequest where
  contentHash := ⟨sampleHash [1]⟩
  requesterId := sampleNode 3
  requestId := FixedBytes.zero
  hopLimit := 2
  timestamp := 1200

theorem strandedRouter_forwards : strandedRouter.Forwards strandedRequest :=
  ⟨by decide, by decide, rfl⟩

/-- There is no host, and still its own request is sent, nobody is told, and the
other node's request is forwarded. -/
theorem stranded_sends :
    strandedRouter.routingTable.selectBestHost (.still sampleTime) ⟨sampleHash [1]⟩ = none ∧
      ¬ RequestOk sampleHash strandedRouter (.still sampleTime) FixedBytes.zero
        ⟨sampleHash [1]⟩ 8 ∧
      ¬ HandleOk sampleHash strandedRouter (.still sampleTime) strandedRequest := by
  have hnone : strandedRouter.routingTable.selectBestHost (.still sampleTime) ⟨sampleHash [1]⟩ =
      none := by
    decide
  refine ⟨hnone, ?_, ?_⟩
  · intro hok
    rcases (requestOk_iff _ _ _ _ _).mp hok with hroute | ⟨hsend, _⟩
    · exact hroute hnone
    · cases hsend
  · intro hok
    have hplain : strandedRequest.innermost sampleHash strandedRouter.localNodeId =
        some strandedRequest :=
      ContentRequest.innermost_of_plain (by decide) rfl
    exact (handleOk_iff _ _ _).mp hok strandedRequest hplain strandedRouter_forwards hnone

end Cashew.Theorems.RouterRoutes
