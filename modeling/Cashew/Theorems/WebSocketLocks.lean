import Cashew.Gateway.WebSocketHandler

/-!
# The mutexes of the WebSocket handler

All calls but two take the mutex of the connections before that of the subscriptions, that
before the one of the statistics, and the mutex of a connection last; so they never wait for
each other in a circle, and all come to their end (`calls_can_finish`). `get_statistics` takes
the mutex of the connections under that of the statistics. Beside `accept_connection` or
`broadcast_text` it can come to wait for ever, and with it every call that wants one of the
two mutexes (`statistics_deadlock`).

A close frame on an open connection has the order of `get_statistics`.
-/

namespace Cashew.Theorems.WebSocketLocks

open Cashew Cashew.Lib LockOrder

/-! ## The order -/

/-- The place of a mutex in the order. -/
def rank : WsLock → Nat
  | .connections => 0
  | .subscriptions => 1
  | .stats => 2
  | .connection _ => 3

theorem rank_le (lock : WsLock) : rank lock ≤ 3 := by
  cases lock <;> simp [rank]

/-- Not `get_statistics`, and not a close frame on an open connection. -/
def Orderly : WsPath → Prop
  | .getStatistics => False
  | .handleFrame _ isAlive type _ => ¬ (isAlive = true ∧ type = .close)
  | _ => True

/-- The mutex of a connection can be taken under all others. -/
theorem fits_connection {held : List WsLock} (hheld : ∀ other ∈ held, rank other < 3)
    (conn : WsRef) : Fits rank held (scope (.connection conn) []) :=
  .scope hheld (.nil _)

theorem fits_sendLocks {held : List WsLock} (hheld : ∀ other ∈ held, rank other < 3)
    (conn : WsRef × Bool) : Fits rank held (sendLocks conn) := by
  refine (fits_connection hheld conn.1).append ?_
  cases conn.2 with
  | false => exact .nil held
  | true => exact fits_connection hheld conn.1

theorem fits_visitLocks {held : List WsLock} (hheld : ∀ other ∈ held, rank other < 3)
    (visit : WsRef × WsVisit) : Fits rank held (visitLocks visit) := by
  have hlock := fits_connection hheld visit.1
  unfold visitLocks
  cases visit.2 with
  | dead => exact hlock
  | kept => exact hlock.append hlock
  | timedOut => exact (hlock.append hlock).append hlock
  | pinged => exact (hlock.append hlock).append hlock

theorem fits_frameLocks {type : WsMessageType} (htype : type ≠ .close) (conn : WsRef)
    (tooLarge : Bool) : Fits rank [.stats] (frameLocks conn type tooLarge) := by
  have hlock : Fits rank [.stats] (scope (.connection conn) []) := fits_connection (by decide) conn
  unfold frameLocks
  cases type with
  | ping => exact hlock
  | pong => exact .nil _
  | close => exact absurd rfl htype
  | text =>
    cases tooLarge with
    | false => exact .nil _
    | true => exact hlock
  | binary =>
    cases tooLarge with
    | false => exact .nil _
    | true => exact hlock

/-- A guard of the statistics under one other guard, where a test succeeds. -/
theorem fits_stats {held : List WsLock} (hheld : ∀ other ∈ held, rank other < 2) (test : Bool) :
    Fits rank held (if test then scope .stats [] else []) := by
  cases test with
  | false => exact .nil held
  | true => exact .scope hheld (.nil _)

theorem fits_locks {path : WsPath} (h : Orderly path) : Fits rank [] path.locks := by
  have hnone : ∀ bound, ∀ other ∈ ([] : List WsLock), rank other < bound := by simp
  cases path with
  | acceptConnection room => exact .scope (hnone _) (fits_stats (by decide) room)
  | handleFrame conn isAlive type tooLarge =>
    refine (fits_connection (hnone _) conn).append ?_
    cases isAlive with
    | false => exact .nil _
    | true =>
      exact .scope (hnone _) (fits_frameLocks (fun htype => h ⟨rfl, htype⟩) conn tooLarge)
  | broadcastText conns =>
    exact .scope (hnone _) ((Fits.flatMap fun conn _ => fits_sendLocks (by decide) conn).append
      (fits_stats (by decide) true))
  | broadcastEvent subscribers =>
    exact .scope (hnone _) ((Fits.flatMap fun conn _ => fits_sendLocks (by decide) conn).append
      (fits_stats (by decide) true))
  | broadcastNothing => exact .scope (hnone _) (.nil _)
  | subscribe added => exact .scope (hnone _) (fits_stats (by decide) added)
  | unsubscribe found => exact .scope (hnone _) (fits_stats (by decide) found)
  | keepalive conns =>
    exact .scope (hnone _) ((Fits.flatMap fun visit _ => fits_visitLocks (by decide) visit).append
      (.scope (by decide) (.nil _)))
  | stop conns =>
    exact .scope (hnone _) (Fits.flatMap fun conn _ => fits_connection (by decide) conn)
  | getStatistics => exact h.elim
  | onConnection conn => exact fits_connection (hnone _) conn

section Callers

variable {τ : Type} [DecidableEq τ] {calls : τ → List WsPath}

omit [DecidableEq τ] in
theorem ranked_callers (h : ∀ t, ∀ path ∈ calls t, Orderly path) : Ranked rank (callers calls) :=
  .start (fun _ => rfl) fun t =>
    Fits.ordered (.flatMap fun path hpath => fits_locks (h t path hpath))

/-- **They all come to their end**: whatever the threads have done so far, no two of them wait
for each other in a way that keeps one from the end of its calls. -/
theorem calls_can_finish [Fintype τ] (h : ∀ t, ∀ path ∈ calls t, Orderly path)
    {threads : τ → Thread WsLock} (hsteps : Steps (callers calls) threads) :
    ∃ last, Steps threads last ∧ Finished last :=
  ((ranked_callers h).steps hsteps).can_finish rank_le

/-- Two threads that accept and broadcast while a third one keeps the connections alive. -/
theorem broadcast_beside_keepalive :
    ∃ last, Steps (callers fun t : Fin 2 =>
      if t = 0 then [.acceptConnection true, .broadcastText [(0, true)]]
      else [.keepalive [(0, .pinged)]]) last ∧ Finished last := by
  refine calls_can_finish (fun t => ?_) .refl
  split
  · simp [Orderly]
  · simp [Orderly]

/-! ## The deadlock -/

/-- A call that takes the mutex of the statistics under that of the connections. -/
def CountsConnections : WsPath → Prop
  | .acceptConnection room => room = true
  | .broadcastText _ => True
  | _ => False

/-- The mutexes of `sendLocks`. -/
def sendMutexes (conn : WsRef × Bool) : List WsLock :=
  .connection conn.1 :: if conn.2 then [.connection conn.1] else []

theorem flatMap_sendLocks (conns : List (WsRef × Bool)) :
    conns.flatMap sendLocks = (conns.flatMap sendMutexes).flatMap (scope · []) := by
  rw [List.flatMap_assoc]
  refine List.flatMap_congr fun conn _ => ?_
  unfold sendLocks sendMutexes
  cases conn.2 with
  | false => rfl
  | true => rfl

theorem locks_of_countsConnections {path : WsPath} (h : CountsConnections path) :
    ∃ (mutexes : List WsLock) (rest : List (LockOp WsLock)), path.locks =
      .take .connections :: (mutexes.flatMap (scope · []) ++ .take .stats :: rest) ∧
      ∀ lock ∈ mutexes, ∃ conn, lock = .connection conn := by
  cases path with
  | acceptConnection room =>
    have hroom : room = true := h
    refine ⟨[], [.drop .stats, .drop .connections], ?_, ?_⟩
    · rw [hroom]
      rfl
    · simp
  | broadcastText conns =>
    refine ⟨conns.flatMap sendMutexes, [.drop .stats, .drop .connections], ?_, ?_⟩
    · show scope .connections (conns.flatMap sendLocks ++ scope .stats []) = _
      rw [flatMap_sendLocks]
      simp [scope]
    · intro lock hlock
      obtain ⟨conn, _, hmem⟩ := List.mem_flatMap.mp hlock
      refine ⟨conn.1, ?_⟩
      unfold sendMutexes at hmem
      cases hsent : conn.2 with
      | false => simpa [hsent] using hmem
      | true => simpa [hsent] using hmem
  | _ => exact h.elim

/-- **The deadlock.** Where one thread is about to ask for the statistics, another one is about
to accept a connection or to broadcast a text, and no mutex is taken, the two can come to wait
for each other. From then on neither comes to its end, nor does any thread that still has to
take the mutex of the connections or of the statistics. -/
theorem statistics_deadlock {threads : τ → Thread WsLock} {t t' : τ} (hne : t ≠ t')
    {path : WsPath} (hpath : CountsConnections path) {rest rest' : List (LockOp WsLock)}
    (ht : (threads t).code = WsPath.getStatistics.locks ++ rest)
    (ht' : (threads t').code = path.locks ++ rest') (hfree : ∀ lock, Free threads lock) :
    ∃ stuck, Steps threads stuck ∧
      (∀ other, other ≠ t → other ≠ t' → stuck other = threads other) ∧
      ∀ later, Steps stuck later → ∀ other,
        other = t ∨ other = t' ∨ .take .stats ∈ (stuck other).code ∨
          .take .connections ∈ (stuck other).code →
        (later other).code ≠ [] := by
  obtain ⟨mutexes, after, hlocks, hmutexes⟩ := locks_of_countsConnections hpath
  rw [hlocks, List.cons_append, List.append_assoc, List.cons_append] at ht'
  have hheld : ∀ other, (threads other).held = [] := fun other =>
    List.eq_nil_iff_forall_not_mem.mpr fun lock => hfree lock other
  -- the other call takes the connections and comes to the statistics
  let first := Function.update threads t'
    ⟨mutexes.flatMap (scope · []) ++ .take .stats :: (after ++ rest'), [.connections]⟩
  have hfirst : Step threads first := by
    have htake := Step.take ht' (hfree .connections)
    rwa [hheld t'] at htake
  have hfirst_t' : first t' =
      ⟨mutexes.flatMap (scope · []) ++ .take .stats :: (after ++ rest'), [.connections]⟩ :=
    Function.update_self ..
  have hfree_first : ∀ lock, lock ≠ .connections → Free first lock := by
    intro lock hlock other
    by_cases hother : other = t'
    · rw [hother, hfirst_t']
      exact fun hmem => hlock (List.mem_singleton.mp hmem)
    · rw [show first other = threads other from Function.update_of_ne hother ..]
      exact hfree lock other
  let second := Function.update first t' ⟨.take .stats :: (after ++ rest'), (first t').held⟩
  have hsecond : Steps first second := by
    refine Steps.scopes mutexes (by rw [hfirst_t']) fun lock hlock => hfree_first lock ?_
    obtain ⟨conn, rfl⟩ := hmutexes lock hlock
    exact fun heq => nomatch heq
  have hsecond_t' : second t' = ⟨.take .stats :: (after ++ rest'), [.connections]⟩ := by
    show Function.update first t' _ t' = _
    rw [Function.update_self, hfirst_t']
  have hsecond_of_ne : ∀ other, other ≠ t' → second other = threads other := fun other hother =>
    (Function.update_of_ne hother ..).trans (Function.update_of_ne hother ..)
  -- meanwhile the statistics are taken
  let stuck := Function.update second t
    ⟨.take .connections :: [.drop .connections, .drop .stats] ++ rest, [.stats]⟩
  have hstuck : Step second stuck := by
    have hcode : (second t).code =
        .take .stats :: (.take .connections :: [.drop .connections, .drop .stats] ++ rest) := by
      rw [hsecond_of_ne t hne, ht]
      rfl
    have htake := Step.take hcode (free_update_code.mpr (hfree_first .stats (by decide)))
    rwa [hsecond_of_ne t hne, hheld t] at htake
  have hstuck_t' : stuck t' = second t' := Function.update_of_ne hne.symm ..
  have hcrossed : Crossed stuck t t' .stats .connections := by
    refine ⟨?_, ?_, ⟨[.drop .connections, .drop .stats] ++ rest, ?_⟩, ⟨after ++ rest', ?_⟩⟩
    · simp [stuck]
    · rw [hstuck_t', hsecond_t']
      exact List.mem_singleton_self _
    · simp [stuck]
    · rw [hstuck_t', hsecond_t']
  refine ⟨stuck, .head hfirst (hsecond.tail hstuck), ?_, ?_⟩
  · intro other hother hother'
    exact (Function.update_of_ne hother ..).trans (hsecond_of_ne other hother')
  · intro later hlater other hwants
    have hsome : ∃ lock, (lock = .stats ∨ lock = .connections) ∧
        .take lock ∈ (stuck other).code := by
      rcases hwants with heq | heq | hmem | hmem
      · obtain ⟨_, hcode⟩ := hcrossed.wants
        exact ⟨.connections, .inr rfl, by rw [heq, hcode]; exact List.mem_cons_self⟩
      · obtain ⟨_, hcode⟩ := hcrossed.wants'
        exact ⟨.stats, .inl rfl, by rw [heq, hcode]; exact List.mem_cons_self⟩
      · exact ⟨.stats, .inl rfl, hmem⟩
      · exact ⟨.connections, .inr rfl, hmem⟩
    obtain ⟨lock, hlock, hmem⟩ := hsome
    exact List.ne_nil_of_mem (hcrossed.still_wanted hlater hlock hmem)

/-- The statistics asked for while a connection is accepted. -/
theorem statistics_beside_accept :
    ∃ stuck, Steps (callers fun t : Fin 2 =>
        if t = 0 then [.getStatistics] else [.acceptConnection true]) stuck ∧
      ∀ later, Steps stuck later → (later 0).code ≠ [] ∧ (later 1).code ≠ [] := by
  let calls : Fin 2 → List WsPath := fun t =>
    if t = 0 then [.getStatistics] else [.acceptConnection true]
  have ht : (callers calls 0).code = WsPath.getStatistics.locks ++ [] := rfl
  have ht' : (callers calls 1).code = (WsPath.acceptConnection true).locks ++ [] := rfl
  have hpath : CountsConnections (.acceptConnection true) := rfl
  obtain ⟨stuck, hsteps, _, hstuck⟩ :=
    statistics_deadlock (by decide) hpath ht ht' (fun _ _ => List.not_mem_nil)
  exact ⟨stuck, hsteps, fun later hlater =>
    ⟨hstuck later hlater 0 (.inl rfl), hstuck later hlater 1 (.inr (.inl rfl))⟩⟩

end Callers

end Cashew.Theorems.WebSocketLocks
