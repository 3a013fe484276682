import Cashew.Logic.Router

/-!
# Onion routes

`create_onion_layers` wraps the request for the last hop and what comes out for
the hop before it, and so on, each time with the next hop's id in front.
`handle_content_request` takes what it finds inside its layer for a request and
handles that itself. For a path of one hop this is the request that was sent. For
a longer one it is the layer of the next hop, which is no request; and whatever a
hop sends on has no layers (`innermost_spec`), so the rest of the path never gets
what was wrapped for it.
-/

namespace Cashew.Theorems.OnionRouting

open Cashew Cashew.Lib

variable {H : Bytes → Hash256}

/-! ## Following a path -/

/-- A hop: its router, in whatever state it is, and the clock readings of its
call. -/
abbrev Hop := Router × Clock

def routePath (hops : List Hop) : List NodeID := hops.map fun hop => hop.1.localNodeId

/-- The request that is wrapped. -/
def original (H : Bytes → Hash256) (r : Router) (clock : Clock) (random : FixedBytes 16)
    (contentHash : ContentHash) (hops : List Hop) : ContentRequest :=
  (r.openRequest H (clock.read 0) random contentHash (UInt8.ofNat ((routePath hops).length + 2))).2

/-- The first hop got `received`; from there the request reaches the last hop.
Each hop before it hands the request on to the next one, in the layers made for
the hops from there on, and the last one handles the request itself. -/
def Follows (H : Bytes → Hash256) (request : ContentRequest) : List Hop → ContentRequest → Prop
  | [], _ => True
  | [(r, _)], received =>
    ∃ q, received.innermost H r.localNodeId = some q ∧ q.contentHash = request.contentHash ∧
      q.requesterId = request.requesterId ∧ q.requestId = request.requestId
  | (r, clock) :: next :: rest, received =>
    ∃ fwd, .sendRequest next.1.localNodeId fwd ∈ (r.handleContentRequest H clock received).2 ∧
      fwd.onionLayers = createOnionLayers H (routePath (next :: rest)) request.toBytes ∧
      Follows H request (next :: rest) fwd

/-- What `request_content_with_onion_routing` sends goes to the first hop and
follows the path from there. -/
def RouteOk (H : Bytes → Hash256) (r : Router) (clock : Clock) (random : FixedBytes 16)
    (contentHash : ContentHash) (hops : List Hop) : Prop :=
  ∀ peer sent, .sendRequest peer sent ∈
      (r.requestContentWithOnionRouting H clock random contentHash (routePath hops)).2 →
    (routePath hops).head? = some peer ∧
      Follows H (original H r clock random contentHash hops) hops sent

/-- The wrapped request, as it is sent. -/
def wrapped (H : Bytes → Hash256) (r : Router) (clock : Clock) (random : FixedBytes 16)
    (contentHash : ContentHash) (hops : List Hop) : ContentRequest :=
  { original H r clock random contentHash hops with
    onionLayers := createOnionLayers H (routePath hops)
      (original H r clock random contentHash hops).toBytes }

theorem request_snd (r : Router) (clock : Clock) (random : FixedBytes 16) (c : ContentHash)
    (first : Hop) (rest : List Hop) :
    (r.requestContentWithOnionRouting H clock random c (routePath (first :: rest))).2 =
      .issued (H (r.requestIdInput random)) c :: r.sendRequestToPeer first.1.localNodeId
        (wrapped H r clock random c (first :: rest)) := rfl

/-- A layer is never sent on. -/
theorem onionLayers_of_sent {r : Router} {clock : Clock} {received fwd : ContentRequest}
    {peer : NodeID} (h : .sendRequest peer fwd ∈ (r.handleContentRequest H clock received).2) :
    fwd.onionLayers = [] := by
  obtain ⟨q, hq, _, _, rfl⟩ := Router.handleContentRequest_sends h
  exact (ContentRequest.innermost_spec hq).1

/-- So no path goes beyond its first hop. -/
theorem not_follows (request received : ContentRequest) (first second : Hop) (rest : List Hop) :
    ¬ Follows H request (first :: second :: rest) received := by
  rintro ⟨fwd, hsent, hlayers, _⟩
  rw [onionLayers_of_sent hsent] at hlayers
  cases hlayers

/-- The only hop of a path finds the request inside its layer. -/
theorem follows_one (r : Router) (clock : Clock) (random : FixedBytes 16) (c : ContentHash)
    (hop : Hop) :
    Follows H (original H r clock random c [hop]) [hop] (wrapped H r clock random c [hop]) := by
  have hlayers : (wrapped H r clock random c [hop]).onionLayers =
      [wrapLayer H hop.1.localNodeId default (original H r clock random c [hop]).toBytes] := rfl
  have hinside : (wrapped H r clock random c [hop]).inside H hop.1.localNodeId =
      some (original H r clock random c [hop]) :=
    ContentRequest.inside_of_wrapped hlayers rfl
  -- a path of one hop gives a limit of three
  have hhops : (3 : UInt8) ≠ 0 := by decide
  have hinnermost : (wrapped H r clock random c [hop]).innermost H hop.1.localNodeId =
      some (original H r clock random c [hop]) := by
    rw [ContentRequest.innermost_of_layers hhops (hlayers ▸ List.cons_ne_nil _ _), hinside]
    exact ContentRequest.innermost_of_plain hhops rfl
  exact ⟨_, hinnermost, rfl, rfl, rfl⟩

/-- **An onion-routed request reaches the last hop of its path exactly if the path
is a single hop**, or if nothing is sent at all: whatever the states of the
routers on a longer path, its first hop does not hand the request on. -/
theorem route_followed_iff (H : Bytes → Hash256) (r : Router) (clock : Clock)
    (random : FixedBytes 16) (contentHash : ContentHash) (hops : List Hop) :
    RouteOk H r clock random contentHash hops ↔
      r.callbacks.requestSend = false ∨ hops.length ≤ 1 := by
  cases hops with
  | nil =>
    -- no hop: a request is issued and nothing is sent
    refine ⟨fun _ => .inr (Nat.zero_le 1), fun _ peer sent hsent => ?_⟩
    cases List.mem_singleton.mp hsent
  | cons first rest =>
    cases hsend : r.callbacks.requestSend with
    | false =>
      refine ⟨fun _ => .inl rfl, fun _ peer sent hsent => ?_⟩
      rw [request_snd, Router.sendRequestToPeer, hsend] at hsent
      cases List.mem_singleton.mp hsent
    | true =>
      have heffects : (r.requestContentWithOnionRouting H clock random contentHash
          (routePath (first :: rest))).2 = [.issued (H (r.requestIdInput random)) contentHash,
            .sendRequest first.1.localNodeId
              (wrapped H r clock random contentHash (first :: rest))] := by
        rw [request_snd, Router.sendRequestToPeer, hsend]
        rfl
      -- one hop reads the request; with two the first cannot hand on what it peels
      cases rest with
      | nil =>
        refine ⟨fun _ => .inr (Nat.le_refl 1), fun _ peer sent hsent => ?_⟩
        rw [heffects] at hsent
        rcases List.mem_cons.mp hsent with hissued | hsent
        · cases hissued
        · cases List.mem_singleton.mp hsent
          exact ⟨rfl, follows_one r clock random contentHash first⟩
      | cons second rest =>
        refine iff_of_false ?_ ?_
        · intro hok
          have hsent : .sendRequest first.1.localNodeId
              (wrapped H r clock random contentHash (first :: second :: rest)) ∈
              (r.requestContentWithOnionRouting H clock random contentHash
                (routePath (first :: second :: rest))).2 := by
            rw [heffects]
            exact List.mem_cons_of_mem _ (List.mem_singleton_self _)
          exact not_follows _ _ first second rest (hok _ _ hsent).2
        · rintro (hfalse | hshort)
          · cases hfalse
          · simp only [List.length_cons] at hshort
            omega

/-- A router that can send. -/
def asker : Router where
  localNodeId := sampleNode 1
  callbacks := { requestSend := true }

/-- A path of two hops. The first can send too and knows the second as a host of
the content. -/
def twoHops : List Hop :=
  let second := sampleNode (256 ^ 32 / 255)
  let table := ({} : RoutingTable).addNode sampleTime second 1
  [({ localNodeId := sampleNode 2
      routingTable := table.advertiseContent second ⟨sampleHash [1]⟩
      callbacks := { requestSend := true } }, .still sampleTime),
    ({ localNodeId := second }, .still sampleTime)]

/-- What is sent over these two hops. -/
def lostRequest : ContentRequest :=
  wrapped sampleHash asker (.still sampleTime) FixedBytes.zero ⟨sampleHash [1]⟩ twoHops

/-- The first hop cannot read the second hop's layer as a request and drops it. -/
theorem lostRequest_innermost : lostRequest.innermost sampleHash (sampleNode 2) = none := by
  have hlayer : lostRequest.onionLayers = [wrapLayer sampleHash (sampleNode 2)
      (sampleNode (256 ^ 32 / 255)) (wrapLayer sampleHash (sampleNode (256 ^ 32 / 255)) default
        (original sampleHash asker (.still sampleTime) FixedBytes.zero ⟨sampleHash [1]⟩
          twoHops).toBytes)] := rfl
  have hinside : lostRequest.inside sampleHash (sampleNode 2) = none := by
    rw [ContentRequest.inside_of_layers hlayer, decryptOnionLayer_wrapLayer, Option.bind_some]
    decide +kernel
  rw [ContentRequest.innermost_of_layers (by decide) (List.cons_ne_nil _ _), hinside]
  rfl

theorem two_hops_lost :
    .sendRequest (sampleNode 2) lostRequest ∈ (asker.requestContentWithOnionRouting sampleHash
        (.still sampleTime) FixedBytes.zero ⟨sampleHash [1]⟩ (routePath twoHops)).2 ∧
      (∀ hop ∈ twoHops.head?, (hop.1.handleContentRequest sampleHash hop.2 lostRequest).2 = []) ∧
      ¬ RouteOk sampleHash asker (.still sampleTime) FixedBytes.zero ⟨sampleHash [1]⟩ twoHops := by
  have hsent : .sendRequest (sampleNode 2) lostRequest ∈
      (asker.requestContentWithOnionRouting sampleHash (.still sampleTime) FixedBytes.zero
        ⟨sampleHash [1]⟩ (routePath twoHops)).2 :=
    List.mem_cons_of_mem _ (List.mem_singleton_self _)
  refine ⟨hsent, ?_, fun hok => not_follows _ _ _ _ _ (hok _ _ hsent).2⟩
  rintro hop ⟨⟩
  exact Router.handleContentRequest_of_none lostRequest_innermost _

end Cashew.Theorems.OnionRouting
