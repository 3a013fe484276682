import Cashew.Gateway.GatewayServer

/-!
# Mutexes that are taken twice

`handle_request` holds the mutex of the statistics to its end, and two of the functions it
calls take a mutex that is held already: `get_or_create_session` calls `cleanup_sessions` with
the sessions' mutex held where the table is full, and `handle_status` asks for the statistics.
A thread that comes there waits for ever for itself.

`answered_iff` says that a run's requests are all answered exactly if none of them comes there.
-/

namespace Cashew.Theorems.GatewayLocks

open Cashew Cashew.Lib GatewayServer

variable {H : Bytes → Hash256} {verify : Bytes → Signature → PublicKey → Bool}
  {s : GatewayServer} {around : RequestSurroundings} {request : HttpRequest}

/-- The session that the cookie names is there. -/
def SessionKnown (s : GatewayServer) (request : HttpRequest) : Prop :=
  ∃ id ∈ cookieSessionId request, s.sessions.contains id = true

/-- The table has the session, or room for one. -/
def Roomy (s : GatewayServer) (request : HttpRequest) : Prop :=
  SessionKnown s request ∨ s.sessions.entries.length < s.config.maxSessions

/-- The request is over the limits; or it needs no new session in a full table and does not ask
for the status. -/
def Free (s : GatewayServer) (around : RequestSurroundings) (request : HttpRequest) : Prop :=
  s.allows (around.now 0) request.clientIp = false ∨
    (Roomy s request ∧ ¬ (request.method = .get ∧ request.path = Text.ofString "/api/status"))

/-! ## The parts of a request -/

theorem checkRateLimit_returns (clientIp : Text) :
    ∃ s', checkRateLimit around clientIp [.stats] s =
        .returned (s.allows (around.now 0) clientIp) s' ∧
      s'.sessions = s.sessions ∧ s'.config = s.config := ⟨_, rfl, rfl, rfl⟩

theorem sessionKnown_iff :
    SessionKnown s request ↔
      ((cookieSessionId request).bind fun id =>
        (s.sessions.find? id).map (id, ·)).isSome = true := by
  unfold SessionKnown OrdMap.contains
  cases cookieSessionId request with
  | none => simp
  | some id => simp

theorem getOrCreateSession_returns (h : Roomy s request) :
    Guarded.Returns (getOrCreateSession H around request) [.stats] s := by
  unfold Roomy at h
  rw [sessionKnown_iff] at h
  unfold getOrCreateSession
  rw [Guarded.returns_withLock_iff, Guarded.returns_get_bind]
  refine ⟨by decide, ?_⟩
  cases hknown : (cookieSessionId request).bind fun id => (s.sessions.find? id).map (id, ·) with
  | some known => exact ⟨_, _, rfl⟩
  | none =>
    have hroom : ¬ s.config.maxSessions ≤ s.sessions.entries.length := by
      rw [hknown] at h
      exact Nat.not_le.mpr (h.resolve_left Bool.false_ne_true)
    dsimp only
    rw [if_neg hroom]
    exact ⟨_, _, rfl⟩

/-- A new session in a full table is never got. -/
theorem getOrCreateSession_stuck (h : ¬ Roomy s request) :
    Guarded.Stuck (getOrCreateSession H around request) [.stats] s := by
  unfold Roomy at h
  rw [sessionKnown_iff, not_or, Bool.not_eq_true, Option.isSome_eq_false_iff,
    Option.isNone_iff_eq_none, Nat.not_lt] at h
  unfold getOrCreateSession
  rw [Guarded.stuck_withLock_iff, Guarded.stuck_get_bind, h.1]
  dsimp only
  rw [if_pos h.2]
  refine .inr (Guarded.stuck_bind_of_stuck ?_)
  exact Guarded.stuck_withLock_iff.mpr (.inl List.mem_cons_self)

theorem not_stuck_finish (response : HttpResponse) :
    ¬ Guarded.Stuck (finish response) [.stats] s := Guarded.not_stuck_of_returned rfl

/-- Only the status handler takes a mutex. -/
theorem stuck_runHandler_iff {id : Text} {session : GatewaySession} {route : Route} :
    Guarded.Stuck (runHandler verify around request id session route) [.stats] s ↔
      route = .status := by
  cases route with
  | status =>
    refine iff_of_true ?_ rfl
    exact Guarded.stuck_bind_of_stuck (Guarded.stuck_withLock_iff.mpr (.inl List.mem_cons_self))
  | root => exact iff_of_false (Guarded.not_stuck_ofOption _) Route.noConfusion
  | health => exact iff_of_false (Guarded.not_stuck_returns _) Route.noConfusion
  | networks => exact iff_of_false (Guarded.not_stuck_ofOption _) Route.noConfusion
  | networkDetail => exact iff_of_false (Guarded.not_stuck_ofOption _) Route.noConfusion
  | thingContent => exact iff_of_false (Guarded.not_stuck_ofOption _) Route.noConfusion
  | authenticate => exact iff_of_false (Guarded.not_stuck_of_returned rfl) Route.noConfusion
  | staticFile => exact iff_of_false (Guarded.not_stuck_ofOption _) Route.noConfusion

/-- Which requests ask for the status. -/
theorem findHandler_status_iff {method : HttpMethod} {path : Text} :
    findHandler method path = some .status ↔
      method = .get ∧ path = Text.ofString "/api/status" := by
  have honly : ∀ entry ∈ defaultHandlers, entry.2.2 = .status →
      entry.1 = .get ∧ entry.2.1 = "/api/status" := by decide
  constructor
  · intro h
    unfold findHandler at h
    split at h
    · rename_i m pattern route hfound
      obtain rfl : route = .status := Option.some.inj h
      obtain ⟨rfl, rfl⟩ := honly _ (List.mem_of_find?_eq_some hfound) rfl
      have hmatch := List.find?_some hfound
      simp only [Bool.and_eq_true, decide_eq_true_eq] at hmatch
      exact ⟨hmatch.1.symm, congrArg Text.mk hmatch.2⟩
    · obtain ⟨⟨m, pattern, route⟩, hfound, rfl⟩ := Option.map_eq_some_iff.mp h
      obtain ⟨rfl, rfl⟩ := honly _ (List.mem_of_find?_eq_some hfound) rfl
      have hmatch := List.find?_some hfound
      simp only [Bool.and_eq_true, decide_eq_true_eq] at hmatch
      have hplain : pathMatchesPattern path.bytes (lit "/api/status") =
          decide (path.bytes = lit "/api/status") := by
        unfold pathMatchesPattern
        rw [if_neg (by decide), if_pos (by decide)]
      rw [hplain, decide_eq_true_eq] at hmatch
      exact ⟨hmatch.1.symm, congrArg Text.mk hmatch.2⟩
  · rintro ⟨rfl, rfl⟩
    decide

theorem stuck_respond_iff {id : Text} {session : GatewaySession} :
    Guarded.Stuck (respond verify around request id session) [.stats] s ↔
      request.method = .get ∧ request.path = Text.ofString "/api/status" := by
  rw [← findHandler_status_iff]
  unfold respond
  cases findHandler request.method request.path with
  | none =>
    refine iff_of_false ?_ (by simp)
    dsimp only
    split_ifs
    · rw [Guarded.stuck_get_bind,
        Guarded.stuck_bind_iff fun response s' => not_stuck_finish response]
      exact Guarded.not_stuck_ofOption _
    · exact Guarded.not_stuck_of_returned rfl
  | some route =>
    dsimp only
    rw [Guarded.stuck_catching_iff,
      Guarded.stuck_bind_iff fun response s' => not_stuck_finish response, stuck_runHandler_iff,
      Option.some.injEq]
    intro s'
    exact Guarded.not_stuck_of_returned rfl

/-! ## Whole requests and runs -/

theorem stuck_handleRequest_iff :
    Guarded.Stuck (handleRequest H verify around request) [] s ↔ ¬ Free s around request := by
  unfold handleRequest Free
  rw [Guarded.stuck_withLock_iff, or_iff_right List.not_mem_nil, Guarded.stuck_modify_bind]
  -- the counters change nothing that the rest looks at
  generalize hcounted : GatewayServer.mk s.config s.sessions s.clientRates _ = counted
  have hallows : counted.allows (around.now 0) request.clientIp =
      s.allows (around.now 0) request.clientIp := by
    rw [← hcounted]
    rfl
  obtain ⟨s', hcheck, hsessions, hconfig⟩ :
      ∃ s', checkRateLimit around request.clientIp [.stats] counted =
          .returned (counted.allows (around.now 0) request.clientIp) s' ∧
        s'.sessions = counted.sessions ∧ s'.config = counted.config :=
    checkRateLimit_returns request.clientIp
  have hroomy : Roomy s' request ↔ Roomy s request := by
    unfold Roomy SessionKnown
    rw [hsessions, hconfig, ← hcounted]
  rw [Guarded.stuck_bind_of_returned hcheck, hallows]
  cases s.allows (around.now 0) request.clientIp with
  | false => exact iff_of_false (Guarded.not_stuck_of_returned rfl) (by simp)
  | true =>
    rw [if_neg (by decide)]
    by_cases hroom : Roomy s request
    · obtain ⟨⟨id, session⟩, s'', hsession⟩ := getOrCreateSession_returns (hroomy.mpr hroom)
      rw [Guarded.stuck_bind_of_returned hsession, stuck_respond_iff]
      simp [hroom]
    · refine iff_of_true (Guarded.stuck_bind_of_stuck ?_) (by simp [hroom])
      exact getOrCreateSession_stuck (mt hroomy.mp hroom)

/-- One request is answered exactly if no thread is stuck and it is free. -/
theorem forwardRequest_isSome_iff {state : Option GatewayServer} :
    (forwardRequest H verify state around request).2.isSome = true ↔
      ∃ s, state = some s ∧ Free s around request := by
  cases state with
  | none => simp [forwardRequest]
  | some s =>
    have hstuck : Guarded.Stuck (handleRequest H verify around request) [] s ↔
        ¬ Free s around request := stuck_handleRequest_iff
    unfold Guarded.Stuck at hstuck
    unfold forwardRequest
    cases hrequest : handleRequest H verify around request [] s with
    | returned response s' =>
      rw [hrequest] at hstuck
      have hfree : Free s around request := by
        by_contra hnot
        obtain ⟨lock, hlock⟩ := hstuck.mpr hnot
        cases hlock
      simp [hrequest, hfree]
    | threw s' =>
      rw [hrequest] at hstuck
      have hfree : Free s around request := by
        by_contra hnot
        obtain ⟨lock, hlock⟩ := hstuck.mpr hnot
        cases hlock
      simp [hrequest, hfree]
    | stuck lock =>
      have hnot : ¬ Free s around request := hstuck.mp ⟨lock, hrequest⟩
      simp [hrequest, hnot]

variable (H verify)

/-- The requests of a run are all answered exactly if each is free in the state it meets. -/
theorem answered_iff (config : GatewayConfig) (now : TimePoint)
    (inputs : List (RequestSurroundings × HttpRequest)) :
    (∀ answer ∈ ((gatewayMachine H verify).run (some (GatewayServer.new config now)) inputs).2,
        answer.isSome = true) ↔
      (gatewayMachine H verify).StepsMeet
        (fun state input => ∃ s, state = some s ∧ Free s input.1 input.2)
        (some (GatewayServer.new config now)) inputs := by
  refine (gatewayMachine H verify).run_outputs_iff (P := fun _ => True) (fun _ _ _ => trivial) ?_
    trivial inputs
  rintro state ⟨around, request⟩ -
  have hstep : (forwardRequest H verify state around request).2.isSome = true ↔
      ∃ s, state = some s ∧ Free s around request := forwardRequest_isSome_iff
  rw [← hstep]
  exact List.forall_mem_singleton

/-! ## Two runs that hang -/

/-- Nothing but the clock. -/
def bare : RequestSurroundings where
  now _ := 0
  draw := []
  fs := FileSystem.ofList [] (by decide)
  webRoot := none
  listing := id
  networks := none
  networkDetail _ := none
  thingContent _ _ := none

def getRequest (path : String) : HttpRequest where
  method := .get
  path := Text.ofString path
  clientIp := Text.ofString "192.0.2.1"

/-- A first request for the status is not answered, nor is the second of two without a cookie
where the table holds one session. -/
theorem status_and_full_table_hang :
    (¬ ∀ answer ∈ ((gatewayMachine sampleHash sampleEd25519.verify).run
        (some (GatewayServer.new {} 0)) [(bare, getRequest "/api/status")]).2,
        answer.isSome = true) ∧
      ¬ ∀ answer ∈ ((gatewayMachine sampleHash sampleEd25519.verify).run
        (some (GatewayServer.new { maxSessions := 1 } 0))
        [(bare, getRequest "/health"), (bare, getRequest "/health")]).2,
        answer.isSome = true := by
  constructor
  · decide
  · decide

end Cashew.Theorems.GatewayLocks
