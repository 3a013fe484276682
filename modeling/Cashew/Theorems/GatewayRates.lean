import Cashew.Lib.Machine
import Cashew.Theorems.GatewayLocks

/-!
# The rates of the gateway

A counter goes back to zero at a request that comes a minute (or an hour) after the one
before it. So it counts the requests since the client's last pause of that length
(`find?_counted`), and not those of the last minute: a client that never pauses is refused
after its sixtieth request, however slow it is (`refusals_justified_iff`).
-/

namespace Cashew.Theorems.GatewayRates

open Cashew Cashew.Lib GatewayServer GatewayLocks

/-- The calls of `check_rate_limit`, as `handle_request` makes them; they show the answer. -/
def rateCheckMachine : Machine GatewayServer (RequestSurroundings × Text) Bool where
  step s call :=
    match checkRateLimit call.1 call.2 [.stats] s with
    | .returned answer s' => (s', [answer])
    | _ => (s, [])

/-- The server that is started, after these calls. -/
def counted (config : GatewayConfig) (start : TimePoint)
    (past : List (RequestSurroundings × Text)) : GatewayServer :=
  (rateCheckMachine.run (.new config start) past).1

/-- The call is refused. -/
def Refused (s : GatewayServer) (call : RequestSurroundings × Text) : Prop :=
  (rateCheckMachine.step s call).2 = [false]

/-- The times of a client's requests, the last one first. -/
def requestsOf (clientIp : Text) (calls : List (RequestSurroundings × Text)) : List TimePoint :=
  ((calls.filter (·.2 = clientIp)).map (·.1.now 0)).reverse

/-- Seconds as the clock counts them. -/
def seconds (n : Int) : Int := n * 1000000000

/-! ## Rates -/

/-- The requests in the closed window before the last one. -/
def inLast (length : Int) : List TimePoint → Nat
  | [] => 0
  | now :: past => (now :: past).countP fun t => decide (now - length ≤ t ∧ t ≤ now)

/-- More requests than the maximum are in the last minute or in the last hour. -/
def OverRate (config : GatewayConfig) (requests : List TimePoint) : Prop :=
  config.maxRequestsPerMinute < inLast (seconds 60) requests ∨
    config.maxRequestsPerHour < inLast (seconds 3600) requests

/-- The requests since the last pause of this length. -/
def sincePause (pause : Int) : List TimePoint → Nat
  | [] => 0
  | [_] => 1
  | now :: before :: past =>
    if pause ≤ now - before then 1 else sincePause pause (before :: past) + 1

/-- More requests than the maximum have come since the last minute's or the last hour's pause. -/
def OverStretch (config : GatewayConfig) (requests : List TimePoint) : Prop :=
  config.maxRequestsPerMinute < sincePause (seconds 60) requests ∨
    config.maxRequestsPerHour < sincePause (seconds 3600) requests

/-- What is to hold of the calls with their clients' requests so far: a refused client is
over one of the rates. -/
def Justified (config : GatewayConfig) (start : TimePoint)
    (calls : List (RequestSurroundings × Text)) : Prop :=
  ∀ past call back, calls = past ++ call :: back → Refused (counted config start past) call →
    OverRate config (requestsOf call.2 (past ++ [call]))

/-- A client that stays within both rates is never refused. -/
def SlowServed (config : GatewayConfig) (start : TimePoint)
    (calls : List (RequestSurroundings × Text)) : Prop :=
  ∀ clientIp,
    (∀ past, past <+: calls → ¬ OverRate config (requestsOf clientIp past)) →
    ∀ past call back, calls = past ++ call :: back → call.2 = clientIp →
      ¬ Refused (counted config start past) call

/-! ## What is counted -/

variable {config : GatewayConfig} {start : TimePoint} {past : List (RequestSurroundings × Text)}
  {call : RequestSurroundings × Text}

theorem counted_concat :
    counted config start (past ++ [call]) =
      (rateCheckMachine.step (counted config start past) call).1 :=
  rateCheckMachine.run_append _ _ _

theorem requestsOf_concat (clientIp : Text) :
    requestsOf clientIp (past ++ [call]) =
      if call.2 = clientIp then call.1.now 0 :: requestsOf clientIp past
      else requestsOf clientIp past := by
  unfold requestsOf
  by_cases hclient : call.2 = clientIp <;> simp [hclient]

/-- Whole seconds have passed when their nanoseconds have. -/
theorem le_inSeconds_iff {n : Int} (hn : 0 < n) (d : Int) : n ≤ inSeconds d ↔ seconds n ≤ d := by
  unfold inSeconds seconds
  rcases lt_or_ge d 0 with hneg | hpos
  · have hrounded : d.tdiv 1000000000 ≤ 0 := by
      rw [← neg_neg d, Int.neg_tdiv, Int.tdiv_eq_ediv_of_nonneg (by omega)]
      omega
    omega
  · rw [Int.tdiv_eq_ediv_of_nonneg hpos]
    omega

/-- The counters of a client with a request now and these before it. -/
def countersAt (now : TimePoint) (past : List TimePoint) : ClientRateInfo :=
  { lastRequest := now
    requestsThisMinute := sincePause (seconds 60) (now :: past)
    requestsThisHour := sincePause (seconds 3600) (now :: past) }

/-- The counters of a client with these requests. -/
def counters : List TimePoint → Option ClientRateInfo
  | [] => none
  | now :: past => some (countersAt now past)

theorem countRequest_counters (now : TimePoint) (past : List TimePoint) :
    countRequest now ((counters past).getD {}) = countersAt now past := by
  unfold countRequest countersAt
  cases past with
  | nil => simp [counters, sincePause]
  | cons before earlier =>
    dsimp only [counters, countersAt, Option.getD_some, sincePause]
    have hminute := le_inSeconds_iff (n := 60) (by decide) (now - before)
    have hhour := le_inSeconds_iff (n := 3600) (by decide) (now - before)
    simp only [hminute, hhour]
    congr 1 <;> split <;> rfl

/-- The counters of a client are those of its own requests. -/
theorem find?_counted (clientIp : Text) :
    (counted config start past).clientRates.find? clientIp =
      counters (requestsOf clientIp past) := by
  induction past using List.reverseRecOn with
  | nil => rfl
  | append_singleton past call ih =>
    rw [counted_concat, requestsOf_concat]
    show ((counted config start past).clientRates.insert call.2 _).find? clientIp = _
    rw [OrdMap.find?_insert]
    split
    · rename_i hclient
      rw [hclient, ih, countRequest_counters]
      rfl
    · exact ih

theorem config_counted : (counted config start past).config = config :=
  rateCheckMachine.run_invariant (P := fun s => s.config = config) (fun _ _ h => h) rfl past

/-- A request is refused when there are too many since the last pause. -/
theorem refused_iff :
    Refused (counted config start past) call ↔
      OverStretch config (requestsOf call.2 (past ++ [call])) := by
  rw [requestsOf_concat, if_pos rfl]
  show [(counted config start past).allows (call.1.now 0) call.2] = [false] ↔ _
  unfold allows OverStretch
  rw [find?_counted, countRequest_counters, config_counted, List.singleton_inj,
    Bool.and_eq_false_iff, decide_eq_false_iff_not, decide_eq_false_iff_not, not_le, not_le]
  rfl

/-- If every refused client is over a rate, a slow one is never refused. -/
theorem Justified.slowServed {calls : List (RequestSurroundings × Text)}
    (h : Justified config start calls) : SlowServed config start calls := by
  rintro clientIp hslow past call back hsplit rfl hrefused
  refine hslow (past ++ [call]) ⟨back, ?_⟩ (h past call back hsplit hrefused)
  rw [hsplit, List.append_assoc, List.singleton_append]

/-- **Rates of the gateway.** Along a run, a client is refused only for exceeding a rate, and
a slow one never, just when every request that exceeds a limit since the client's last pause
also exceeds a rate. -/
theorem refusals_justified_iff (config : GatewayConfig) (start : TimePoint)
    (calls : List (RequestSurroundings × Text)) :
    (Justified config start calls ∧ SlowServed config start calls) ↔
      ∀ past call back, calls = past ++ call :: back →
        OverStretch config (requestsOf call.2 (past ++ [call])) →
        OverRate config (requestsOf call.2 (past ++ [call])) := by
  rw [and_iff_left_of_imp Justified.slowServed]
  unfold Justified
  simp only [refused_iff]

/-! ## A slow client that is refused -/

/-- A request at this time. -/
def requestAt (now : TimePoint) : RequestSurroundings × Text :=
  ({ bare with now := fun _ => now }, Text.ofString "192.0.2.1")

theorem requestsOf_requestAt (times : List TimePoint) :
    requestsOf (Text.ofString "192.0.2.1") (times.map requestAt) = times.reverse := by
  unfold requestsOf
  rw [List.filter_eq_self.mpr, List.map_map]
  · exact congrArg _ (List.map_id times)
  · intro call hcall
    obtain ⟨now, -, rfl⟩ := List.mem_map.mp hcall
    exact decide_eq_true rfl

/-- What is to hold of requests at these times. -/
theorem Justified.overRate {times : List TimePoint} {now : TimePoint}
    (h : Justified config start (times.map requestAt ++ [requestAt now]))
    (hstretch : OverStretch config (now :: times.reverse)) :
    OverRate config (now :: times.reverse) := by
  have hrequests : requestsOf (requestAt now).2 (times.map requestAt ++ [requestAt now]) =
      now :: times.reverse := by
    rw [requestsOf_concat, if_pos rfl]
    exact congrArg _ (requestsOf_requestAt times)
  have hjustified := h _ _ [] rfl
  rw [refused_iff, hrequests] at hjustified
  exact hjustified hstretch

/-- A request every half minute, sixty times. -/
def everyHalfMinute : List TimePoint := (List.range 60).map fun i : Nat => seconds (30 * i)

/-- The sixty-first request is refused. Three of them are in its minute. -/
theorem slow_client_refused :
    ¬ ∀ config start calls, (calls.map (·.1.now 0)).Pairwise (· ≤ ·) →
      Justified config start calls ∧ SlowServed config start calls := by
  intro h
  have hclock : ((everyHalfMinute.map requestAt ++ [requestAt (seconds 1800)]).map
      (·.1.now 0)).Pairwise (· ≤ ·) := by
    rw [List.map_append, List.map_map]
    show (everyHalfMinute.map id ++ [seconds 1800]).Pairwise (· ≤ ·)
    decide
  have hstretch : OverStretch {} (seconds 1800 :: everyHalfMinute.reverse) := by
    unfold OverStretch
    decide
  have hover := (h {} 0 _ hclock).1.overRate hstretch
  revert hover
  unfold OverRate
  decide

end Cashew.Theorems.GatewayRates
