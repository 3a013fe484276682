import Cashew.Lib.Machine
import Cashew.Lib.TextSearch
import Cashew.Common

/-!
# Socket addresses and bandwidth

`SocketAddress` and `BandwidthLimiter` of `network/connection.cpp`: an address as text,
and a token bucket for each direction of a connection.

Text is a list of bytes, and a conversion may throw. The limiter reads a steady clock of
nanoseconds; the lock around each call makes the calls a sequence.
-/

namespace Cashew

open Cashew.Lib

/-! ## Addresses -/

/-- `AddressFamily`. -/
inductive AddressFamily where
  | ipv4
  | ipv6
  | any
  deriving DecidableEq

/-- `SocketAddress`. -/
structure SocketAddress where
  host : Bytes
  port : UInt16
  family : AddressFamily := .any
  deriving DecidableEq

/-- What goes wrong in a conversion: a character is read behind the end, `substr` starts
behind it (`std::out_of_range`), `std::stoi` finds no number (`std::invalid_argument`) or
one that is no `int` (`std::out_of_range`). -/
inductive AddressError where
  | readPastEnd
  | substrPastEnd
  | invalidArgument
  | outOfRange
  deriving DecidableEq

namespace SocketAddress

/-- `s[i]`; the character at the end is zero. -/
def charAt (s : Bytes) (i : Nat) : Except AddressError UInt8 :=
  if i ≤ s.length then .ok (s[i]?.getD 0) else .error .readPastEnd

/-- `s.substr(pos, count)`. -/
def substr (s : Bytes) (pos count : Nat) : Except AddressError Bytes :=
  if pos ≤ s.length then .ok ((s.drop pos).take count) else .error .substrPastEnd

def isDigit (b : UInt8) : Bool := 48 ≤ b ∧ b ≤ 57

/-- The number the digits spell. -/
def digitsValue (digits : Bytes) : Nat :=
  digits.foldl (fun n b => 10 * n + (b.toNat - 48)) 0

/-- A sign and what is behind it. -/
def splitSign : Bytes → Bool × Bytes
  | 45 :: rest => (true, rest)
  | 43 :: rest => (false, rest)
  | rest => (false, rest)

/-- The number a text starts with, behind white space and with a sign; what follows it does
not matter. -/
def leadingInt (s : Bytes) : Option Int :=
  let signed := splitSign (s.dropWhile isSpace)
  let digits := signed.2.takeWhile isDigit
  if digits = [] then none
  else some (if signed.1 then -(digitsValue digits : Int) else digitsValue digits)

/-- `std::stoi`. -/
def stoi (s : Bytes) : Except AddressError Int :=
  match leadingInt s with
  | none => .error .invalidArgument
  | some n => if -2 ^ 31 ≤ n ∧ n < 2 ^ 31 then .ok n else .error .outOfRange

/-- `SocketAddress::to_string`. -/
def toString (a : SocketAddress) : Bytes :=
  if a.family = .ipv6 then 91 :: (a.host ++ 93 :: 58 :: (Text.decimal a.port.toNat).bytes)
  else a.host ++ 58 :: (Text.decimal a.port.toNat).bytes

/-- `SocketAddress::from_string`: 91 and 93 are the brackets, 58 is the colon. -/
def fromString (addr : Bytes) : Except AddressError (Option SocketAddress) := do
  let first ← charAt addr 0
  if first = 91 then
    match findFrom [93] addr 0 with
    | none => pure none
    | some closeBracket =>
      let host ← substr addr 1 (closeBracket - 1)
      if addr.length ≤ closeBracket + 1 then pure none
      else
        let next ← charAt addr (closeBracket + 1)
        if next ≠ 58 then pure none
        else
          let portText ← substr addr (closeBracket + 2) addr.length
          -- the `int` is cut to 16 bits
          let port ← stoi portText
          pure (some { host, port := UInt16.ofInt port, family := .ipv6 })
  else
    match rfindChar 58 addr addr.length with
    | none => pure none
    | some colon =>
      let host ← substr addr 0 colon
      let portText ← substr addr (colon + 1) addr.length
      let port ← stoi portText
      -- "Detect if it's IPv6 without brackets"
      if (findFrom [58] host 0).isSome then
        pure (some { host, port := UInt16.ofInt port, family := .ipv6 })
      else pure (some { host, port := UInt16.ofInt port, family := .ipv4 })

end SocketAddress

/-! ## Bandwidth -/

/-- `BandwidthLimiter`. -/
structure BandwidthLimiter where
  bytesPerSecond : UInt64
  txTokens : UInt64
  rxTokens : UInt64
  lastUpdate : Int
  deriving DecidableEq

namespace BandwidthLimiter

/-- The constructor. -/
def create (bytesPerSecond : UInt64) (now : Int) : BandwidthLimiter :=
  { bytesPerSecond, txTokens := bytesPerSecond, rxTokens := bytesPerSecond, lastUpdate := now }

variable (l : BandwidthLimiter)

/-- `BandwidthLimiter::refill_tokens`. -/
def refillTokens (now : Int) : BandwidthLimiter :=
  -- whole milliseconds
  let elapsed := (now - l.lastUpdate).tdiv 1000000
  if 0 < elapsed then
    let tokensToAdd := l.bytesPerSecond * UInt64.ofInt elapsed / 1000
    { l with
      txTokens := min (l.txTokens + tokensToAdd) l.bytesPerSecond
      rxTokens := min (l.rxTokens + tokensToAdd) l.bytesPerSecond
      lastUpdate := now }
  else l

/-- What a transfer leaves of the tokens. -/
def consume (tokens bytes : UInt64) : UInt64 := if bytes ≤ tokens then tokens - bytes else 0

/-- `BandwidthLimiter::can_send`. -/
def canSend (now : Int) (bytes : UInt64) : BandwidthLimiter × Bool :=
  (l.refillTokens now, bytes ≤ (l.refillTokens now).txTokens)

/-- `BandwidthLimiter::can_receive`. -/
def canReceive (now : Int) (bytes : UInt64) : BandwidthLimiter × Bool :=
  (l.refillTokens now, bytes ≤ (l.refillTokens now).rxTokens)

/-- `BandwidthLimiter::record_sent`. -/
def recordSent (now : Int) (bytes : UInt64) : BandwidthLimiter :=
  { l.refillTokens now with txTokens := consume (l.refillTokens now).txTokens bytes }

/-- `BandwidthLimiter::record_received`. -/
def recordReceived (now : Int) (bytes : UInt64) : BandwidthLimiter :=
  { l.refillTokens now with rxTokens := consume (l.refillTokens now).rxTokens bytes }

/-- `BandwidthLimiter::get_bytes_sent_per_second`, unsigned. -/
def getBytesSentPerSecond : UInt64 := l.bytesPerSecond - l.txTokens

/-- `BandwidthLimiter::get_bytes_received_per_second`. -/
def getBytesReceivedPerSecond : UInt64 := l.bytesPerSecond - l.rxTokens

/-- `BandwidthLimiter::set_limit`. The tokens stay. -/
def setLimit (bytesPerSecond : UInt64) : BandwidthLimiter := { l with bytesPerSecond }

end BandwidthLimiter

/-- The calls on a limiter. -/
inductive BandwidthInput where
  | canSend (now : Int) (bytes : UInt64)
  | canReceive (now : Int) (bytes : UInt64)
  | recordSent (now : Int) (bytes : UInt64)
  | recordReceived (now : Int) (bytes : UInt64)
  | setLimit (bytesPerSecond : UInt64)

/-- A limiter driven by calls; it shows the answers. -/
def bandwidthMachine : Machine BandwidthLimiter BandwidthInput Bool where
  step l
    | .canSend now bytes => ((l.canSend now bytes).1, [(l.canSend now bytes).2])
    | .canReceive now bytes => ((l.canReceive now bytes).1, [(l.canReceive now bytes).2])
    | .recordSent now bytes => (l.recordSent now bytes, [])
    | .recordReceived now bytes => (l.recordReceived now bytes, [])
    | .setLimit bytesPerSecond => (l.setLimit bytesPerSecond, [])

end Cashew
