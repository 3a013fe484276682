import Cashew.Network.Connection

/-!
# Addresses as text

`from_string` gives the text behind the colon to `std::stoi` and cuts what it returns to
16 bits. `std::stoi` throws where there is no number, and takes white space, a sign and
anything behind the digits. `address_iff` says for which strings `from_string` is what it
should be; what `to_string` writes is among them.
-/

namespace Cashew.Theorems.SocketAddress

open Cashew Cashew.Lib Cashew.SocketAddress

/-! ## The property -/

/-- The text is the number in decimal digits. -/
def Decimal (digits : Bytes) (n : Nat) : Prop :=
  digits ≠ [] ∧ (∀ b ∈ digits, isDigit b = true) ∧ digitsValue digits = n

/-- Nothing is thrown, and the port of an address that is returned is the decimal number
behind the last colon. -/
def Exact (addr : Bytes) : Prop :=
  ∃ result, fromString addr = .ok result ∧ ∀ a, result = some a →
    ∃ front digits, addr = front ++ 58 :: digits ∧ 58 ∉ digits ∧ Decimal digits a.port.toNat

/-- The text stands where the port is looked for: behind the first closing bracket and a
colon if the string starts with a bracket, else behind the last colon. -/
def PortAt (addr portText : Bytes) : Prop :=
  (∃ host, addr = 91 :: (host ++ 93 :: 58 :: portText) ∧ 93 ∉ host) ∨
    addr.head? ≠ some 91 ∧ ∃ host, addr = host ++ 58 :: portText ∧ 58 ∉ portText

/-- The text is a decimal number below 65536. (Behind a bracket it may hold more colons; then
the decimal number stands behind the last of them, and the text starts with an `int` that is
the same modulo 65536.) -/
def PortText (portText : Bytes) : Prop :=
  (∃ n < 65536, Decimal portText n) ∨
    ∃ front digits n, portText = front ++ 58 :: digits ∧ 58 ∉ digits ∧ n < 65536 ∧
      Decimal digits n ∧ ∃ k : Int, leadingInt portText = some k ∧
        (-2 ^ 31 ≤ k ∧ k < 2 ^ 31) ∧ k % 65536 = n

/-- Where a port is looked for, there is one. -/
def WellWritten (addr : Bytes) : Prop := ∀ portText, PortAt addr portText → PortText portText

/-! ## Numbers -/

theorem isDigit_iff {b : UInt8} : isDigit b = true ↔ 48 ≤ b.toNat ∧ b.toNat ≤ 57 := by
  rw [isDigit, decide_eq_true_iff, UInt8.le_iff_toNat_le, UInt8.le_iff_toNat_le]
  exact Iff.rfl

theorem not_isSpace_of_isDigit {b : UInt8} (h : isDigit b = true) : isSpace b = false := by
  obtain ⟨hge, hle⟩ := isDigit_iff.mp h
  rw [isSpace, decide_eq_false_iff_not, UInt8.le_iff_toNat_le, UInt8.le_iff_toNat_le,
    ← UInt8.toNat_inj]
  show ¬ (b.toNat = 32 ∨ 9 ≤ b.toNat ∧ b.toNat ≤ 13)
  omega

theorem splitSign_of_isDigit {b : UInt8} (h : isDigit b = true) (rest : Bytes) :
    splitSign (b :: rest) = (false, b :: rest) := by
  obtain ⟨hge, hle⟩ := isDigit_iff.mp h
  unfold splitSign
  split
  · rename_i heq
    cases heq
    exact absurd hge (by decide)
  · rename_i heq
    cases heq
    exact absurd hge (by decide)
  · rfl

/-- A decimal number starts with itself. -/
theorem leadingInt_of_decimal {digits : Bytes} {n : Nat} (h : Decimal digits n) :
    leadingInt digits = some n := by
  obtain ⟨hne, hdigits, hvalue⟩ := h
  cases digits with
  | nil => exact absurd rfl hne
  | cons b rest =>
    have hb := hdigits b List.mem_cons_self
    have hspace : (b :: rest).dropWhile isSpace = b :: rest := by
      rw [List.dropWhile_cons, not_isSpace_of_isDigit hb]
      rfl
    have htake : (b :: rest).takeWhile isDigit = b :: rest :=
      List.takeWhile_eq_self_iff.mpr hdigits
    unfold leadingInt
    rw [hspace, splitSign_of_isDigit hb]
    dsimp only
    rw [htake, if_neg (List.cons_ne_nil b rest), hvalue]
    rfl

theorem colon_not_mem_of_decimal {digits : Bytes} {n : Nat} (h : Decimal digits n) :
    58 ∉ digits := by
  intro hmem
  exact absurd (isDigit_iff.mp (h.2.1 58 hmem)).2 (by decide)

/-- What `operator<<` writes is a decimal number. -/
theorem decimal_decimal (n : Nat) : Decimal (Text.decimal n).bytes n := by
  refine ⟨?_, ?_, ?_⟩
  · rw [Text.decimal, Ne, List.map_eq_nil_iff]
    exact Nat.toDigits_ne_nil
  · intro b hb
    obtain ⟨c, hc, rfl⟩ := List.mem_map.mp hb
    obtain ⟨hcode, hge, hle⟩ := Text.toNat_digit hc
    rw [isDigit_iff, hcode]
    exact ⟨hge, hle⟩
  · -- the fold over the bytes is the one over the digits
    rw [Text.decimal, digitsValue, List.foldl_map]
    refine Eq.trans ?_ (Nat.ofDigitChars_ten_toDigits (n := n))
    rw [Nat.ofDigitChars_eq_foldl]
    refine List.foldl_ext _ _ 0 fun m c hc => ?_
    rw [(Text.toNat_digit hc).1]
    rfl

theorem toNat_ofInt (k : Int) : (UInt16.ofInt k).toNat = (k % 65536).toNat := by
  have hlt : (k % 65536).toNat < 2 ^ 16 := by
    have hnonneg := Int.emod_nonneg k (show (65536 : Int) ≠ 0 by decide)
    have hbound := Int.emod_lt_of_pos k (show (0 : Int) < 65536 by decide)
    omega
  exact UInt16.toNat_ofNat_of_lt' hlt

theorem stoi_eq_ok_iff {s : Bytes} {k : Int} :
    stoi s = .ok k ↔ leadingInt s = some k ∧ (-2 ^ 31 ≤ k ∧ k < 2 ^ 31) := by
  unfold stoi
  cases hlead : leadingInt s with
  | none => exact iff_of_false (fun h => nomatch h) (fun h => nomatch h.1)
  | some n =>
    dsimp only
    split
    · rename_i hrange
      constructor
      · intro h
        cases h
        exact ⟨rfl, hrange⟩
      · rintro ⟨h, -⟩
        cases h
        rfl
    · rename_i hrange
      refine iff_of_false (fun h => nomatch h) ?_
      rintro ⟨h, hrange'⟩
      cases h
      exact hrange hrange'

/-! ## The two forms -/

theorem charAt_zero (s : Bytes) : charAt s 0 = .ok (s.head?.getD 0) := by
  unfold charAt
  rw [if_pos (Nat.zero_le _), List.head?_eq_getElem?]

theorem charAt_append (front : Bytes) (b : UInt8) (back : Bytes) :
    charAt (front ++ b :: back) front.length = .ok b := by
  unfold charAt
  rw [if_pos (by simp), List.getElem?_append_right (Nat.le_refl _), Nat.sub_self]
  rfl

theorem substr_append (front back : Bytes) {count : Nat} (h : back.length ≤ count) :
    substr (front ++ back) front.length count = .ok back := by
  unfold substr
  rw [if_pos (by simp), List.drop_left, List.take_of_length_le h]

theorem findFrom_bracketed {host : Bytes} (back : Bytes) (h : 93 ∉ host) :
    findFrom [93] (91 :: (host ++ 93 :: back)) 0 = some (host.length + 1) := by
  have hfront : 93 ∉ (91 :: host : Bytes) := by
    rw [List.mem_cons]
    exact fun hmem => hmem.elim (fun heq => absurd heq (by decide)) h
  exact findFrom_append hfront

theorem substr_bracketed (host back : Bytes) :
    substr (91 :: (host ++ 93 :: back)) 1 (host.length + 1 - 1) = .ok host := by
  unfold substr
  rw [if_pos (by simp), Nat.add_sub_cancel]
  exact congrArg Except.ok List.take_left

theorem charAt_bracketed (host : Bytes) (b : UInt8) (back : Bytes) :
    charAt (91 :: (host ++ 93 :: b :: back)) (host.length + 1 + 1) = .ok b := by
  have hchar := charAt_append (91 :: host ++ [93]) b back
  rw [List.append_assoc, List.length_append] at hchar
  exact hchar

/-- In brackets: the text behind the first `]:` goes to `stoi`. -/
theorem fromString_bracketed {host portText : Bytes} (h : 93 ∉ host) :
    fromString (91 :: (host ++ 93 :: 58 :: portText)) = (stoi portText).map fun port =>
      some { host, port := UInt16.ofInt port, family := .ipv6 } := by
  have hfind := findFrom_bracketed (58 :: portText) h
  have hhost := substr_bracketed host (58 :: portText)
  have hnext := charAt_bracketed host 58 portText
  have hport : substr (91 :: (host ++ 93 :: 58 :: portText)) (host.length + 1 + 2)
      (91 :: (host ++ 93 :: 58 :: portText)).length = .ok portText := by
    have hshort : portText.length ≤ (91 :: (host ++ 93 :: 58 :: portText)).length := by
      simp only [List.length_cons, List.length_append]
      omega
    have hsub := substr_append (91 :: host ++ [93, 58]) portText hshort
    rw [List.append_assoc, List.length_append] at hsub
    exact hsub
  unfold fromString
  rw [charAt_zero]
  simp only [List.head?_cons, Option.getD_some, hfind, hhost, hnext, hport, bind, Except.bind,
    reduceIte, ne_eq, not_true_eq_false]
  rw [if_neg (by simp)]
  cases stoi portText <;> rfl

theorem head_ne_of_head? {s : Bytes} (h : s.head? ≠ some 91) : s.head?.getD 0 ≠ 91 := by
  cases hcase : s.head? with
  | none => decide
  | some a => exact fun heq => h (hcase.trans (congrArg some heq))

/-- Without: the text behind the last colon. -/
theorem fromString_plain {host portText : Bytes}
    (hhead : (host ++ 58 :: portText).head? ≠ some 91) (h : 58 ∉ portText) :
    fromString (host ++ 58 :: portText) = (stoi portText).map fun port =>
      some { host, port := UInt16.ofInt port, family := if 58 ∈ host then .ipv6 else .ipv4 } := by
  have hhost : substr (host ++ 58 :: portText) 0 host.length = .ok host := by
    unfold substr
    rw [if_pos (Nat.zero_le _), List.drop_zero, List.take_left]
  have hport : substr (host ++ 58 :: portText) (host.length + 1)
      (host ++ 58 :: portText).length = .ok portText := by
    have hshort : portText.length ≤ (host ++ 58 :: portText).length := by
      simp only [List.length_cons, List.length_append]
      omega
    have hsub := substr_append (host ++ [58]) portText hshort
    rw [List.append_assoc, List.length_append] at hsub
    exact hsub
  have hcolon : (findFrom [58] host 0).isSome = true ↔ 58 ∈ host := by
    rw [Option.isSome_iff_ne_none, Ne, findFrom_char_eq_none_iff, List.drop_zero, not_not]
  unfold fromString
  rw [charAt_zero]
  simp only [bind, Except.bind, if_neg (head_ne_of_head? hhead), rfindChar_append h, hhost,
    hport, hcolon]
  cases stoi portText with
  | error e => rfl
  | ok port =>
    show (if 58 ∈ host then _ else _) = _
    split <;> rfl

/-- A bracket that is not closed: no address. -/
theorem fromString_unclosed {rest : Bytes} (h : 93 ∉ 91 :: rest) :
    fromString (91 :: rest) = .ok none := by
  have hfind : findFrom [93] (91 :: rest) 0 = none := findFrom_char_eq_none_iff.mpr h
  unfold fromString
  rw [charAt_zero]
  simp only [bind, Except.bind, List.head?_cons, Option.getD_some, if_true, hfind]
  rfl

/-- A bracket without a colon behind it: no address. -/
theorem fromString_closed {host back : Bytes} (h : 93 ∉ host) (hback : back.head? ≠ some 58) :
    fromString (91 :: (host ++ 93 :: back)) = .ok none := by
  unfold fromString
  rw [charAt_zero]
  simp only [bind, Except.bind, List.head?_cons, Option.getD_some, if_true,
    findFrom_bracketed back h, substr_bracketed]
  cases back with
  | nil => rw [if_pos (by simp)]; rfl
  | cons b portText =>
    have hnext := charAt_bracketed host b portText
    have hb : b ≠ 58 := fun heq => hback (congrArg some heq)
    rw [if_neg (by simp)]
    simp only [hnext, if_pos hb]
    rfl

/-- Neither a bracket nor a colon: no address. -/
theorem fromString_no_colon {addr : Bytes} (hhead : addr.head? ≠ some 91) (h : 58 ∉ addr) :
    fromString addr = .ok none := by
  unfold fromString
  rw [charAt_zero]
  simp only [bind, Except.bind]
  rw [if_neg (head_ne_of_head? hhead), rfindChar_of_not_mem h]
  rfl

/-- Nothing to convert: no address. -/
theorem fromString_none {addr : Bytes} (h : ∀ portText, ¬ PortAt addr portText) :
    fromString addr = .ok none := by
  by_cases hhead : addr.head? = some 91
  · obtain ⟨rest, rfl⟩ := List.head?_eq_some_iff.mp hhead
    by_cases hmem : 93 ∈ 91 :: rest
    · obtain ⟨host, back, rfl, hhost⟩ :=
        List.eq_append_cons_of_mem ((List.mem_cons.mp hmem).resolve_left (by decide))
      refine fromString_closed hhost fun hcolon => ?_
      obtain ⟨portText, rfl⟩ := List.head?_eq_some_iff.mp hcolon
      exact h portText (.inl ⟨host, rfl, hhost⟩)
    · exact fromString_unclosed hmem
  · refine fromString_no_colon hhead fun hmem => ?_
    obtain ⟨host, portText, rfl, hback⟩ := exists_last hmem
    exact h portText (.inr ⟨hhead, host, rfl, hback⟩)

/-! ## Results -/

variable {addr portText : Bytes}

theorem fromString_of_portAt (h : PortAt addr portText) :
    ∃ host family, fromString addr = (stoi portText).map fun port =>
      some { host, port := UInt16.ofInt port, family } := by
  obtain ⟨host, rfl, hhost⟩ | ⟨hhead, host, rfl, hback⟩ := h
  · exact ⟨_, _, fromString_bracketed hhost⟩
  · exact ⟨_, _, fromString_plain hhead hback⟩

theorem PortAt.split (h : PortAt addr portText) : ∃ front, addr = front ++ 58 :: portText := by
  obtain ⟨host, rfl, -⟩ | ⟨-, host, rfl, -⟩ := h
  · exact ⟨91 :: (host ++ [93]), by simp⟩
  · exact ⟨host, rfl⟩

/-- A text that is the port's number, or ends in it behind a colon, makes the result exact. -/
theorem exact_of_stoi {digits front : Bytes} {k : Int} {n : Nat} (h : PortAt addr portText)
    (hstoi : stoi portText = .ok k) (hk : k % 65536 = n) (haddr : addr = front ++ 58 :: digits)
    (hdigits : Decimal digits n) : Exact addr := by
  obtain ⟨host, family, heq⟩ := fromString_of_portAt h
  rw [hstoi] at heq
  refine ⟨_, heq, fun a ha => ?_⟩
  cases ha
  refine ⟨front, digits, haddr, colon_not_mem_of_decimal hdigits, ?_⟩
  show Decimal digits (UInt16.ofInt k).toNat
  rw [toNat_ofInt, hk, Int.toNat_natCast]
  exact hdigits

theorem exact_iff_of_portAt (h : PortAt addr portText) : Exact addr ↔ PortText portText := by
  obtain ⟨pre, hsplit⟩ := h.split
  constructor
  · rintro ⟨result, hresult, hport⟩
    obtain ⟨host, family, heq⟩ := fromString_of_portAt h
    rw [hresult] at heq
    cases hstoi : stoi portText with
    | error e =>
      rw [hstoi] at heq
      cases heq
    | ok k =>
      rw [hstoi] at heq
      obtain ⟨front, digits, haddr, hnot, hdecimal⟩ := hport _ (Except.ok.inj heq)
      have hlast := hsplit.symm.trans haddr
      -- the digits come after the last colon, which may stand inside the port's text
      by_cases hcolon : 58 ∈ portText
      · obtain ⟨front', digits', rfl, hnot'⟩ := exists_last hcolon
        have hjoin : (pre ++ 58 :: front') ++ 58 :: digits' = front ++ 58 :: digits := by
          rw [List.append_assoc]
          exact hlast
        have hsame := Text.suffix_inj hnot' hnot hjoin
        subst hsame
        obtain ⟨hlead, hrange⟩ := stoi_eq_ok_iff.mp hstoi
        refine .inr ⟨front', digits', _, rfl, hnot, UInt16.toNat_lt _, hdecimal, k, hlead,
          hrange, ?_⟩
        show k % 65536 = ((UInt16.ofInt k).toNat : Int)
        rw [toNat_ofInt, Int.toNat_of_nonneg (Int.emod_nonneg k (by decide))]
      · have hsame := Text.suffix_inj hcolon hnot hlast
        subst hsame
        exact .inl ⟨_, UInt16.toNat_lt _, hdecimal⟩
  · rintro (⟨n, hn, hdecimal⟩ | ⟨front, digits, n, rfl, -, hn, hdecimal, k, hlead, hrange, hk⟩)
    · have hlead := leadingInt_of_decimal hdecimal
      refine exact_of_stoi h (stoi_eq_ok_iff.mpr ⟨hlead, ?_⟩) ?_ hsplit hdecimal
      · omega
      · exact Int.emod_eq_of_lt (Int.natCast_nonneg n) (by omega)
    · have haddr : addr = (pre ++ 58 :: front) ++ 58 :: digits := by
        rw [hsplit, List.append_assoc]
        rfl
      exact exact_of_stoi h (stoi_eq_ok_iff.mpr ⟨hlead, hrange⟩) hk haddr hdecimal

theorem exact_iff : Exact addr ↔ WellWritten addr := by
  constructor
  · exact fun h portText hport => (exact_iff_of_portAt hport).mp h
  · intro h
    by_cases hport : ∃ portText, PortAt addr portText
    · obtain ⟨portText, hport⟩ := hport
      exact (exact_iff_of_portAt hport).mpr (h portText hport)
    · refine ⟨none, fromString_none fun portText hat => hport ⟨portText, hat⟩, ?_⟩
      exact fun a ha => nomatch ha

/-- An error of `from_string` is one of `std::stoi`'s. -/
theorem fromString_error {e : AddressError} (h : fromString addr = .error e) :
    e = .invalidArgument ∨ e = .outOfRange := by
  by_cases hport : ∃ portText, PortAt addr portText
  · obtain ⟨portText, hport⟩ := hport
    obtain ⟨host, family, heq⟩ := fromString_of_portAt hport
    rw [h] at heq
    unfold stoi at heq
    cases hlead : leadingInt portText with
    | none =>
      rw [hlead] at heq
      exact .inl (Except.error.inj heq)
    | some k =>
      rw [hlead] at heq
      dsimp only at heq
      split at heq
      · cases heq
      · exact .inr (Except.error.inj heq)
  · rw [fromString_none fun portText hat => hport ⟨portText, hat⟩] at h
    cases h

theorem stoi_decimal (port : UInt16) :
    stoi (Text.decimal port.toNat).bytes = .ok (port.toNat : Int) := by
  refine stoi_eq_ok_iff.mpr ⟨leadingInt_of_decimal (decimal_decimal _), ?_⟩
  have hport := port.toNat_lt
  omega

theorem ofInt_toNat (port : UInt16) : UInt16.ofInt port.toNat = port := by
  rw [← UInt16.toNat_inj, toNat_ofInt, Int.emod_eq_of_lt (Int.natCast_nonneg _)
    (by have hport := port.toNat_lt; omega), Int.toNat_natCast]

/-- What `to_string` writes of an IPv6 address, or of an IPv4 address whose host has no colon,
is read back; brackets in a host are out. -/
theorem fromString_toString {a : SocketAddress}
    (hfamily : a.family = .ipv6 ∨ a.family = .ipv4 ∧ 58 ∉ a.host) (hopen : 91 ∉ a.host)
    (hclose : 93 ∉ a.host) : fromString a.toString = .ok (some a) := by
  obtain ⟨host, port, family⟩ := a
  have hback : 58 ∉ (Text.decimal port.toNat).bytes :=
    colon_not_mem_of_decimal (decimal_decimal _)
  obtain rfl | ⟨rfl, hcolon⟩ := hfamily
  · show fromString (91 :: (host ++ 93 :: 58 :: _)) = _
    rw [fromString_bracketed hclose, stoi_decimal]
    show Except.ok (some _) = _
    rw [ofInt_toNat]
  · have hhead : (host ++ 58 :: (Text.decimal port.toNat).bytes).head? ≠ some 91 := by
      cases host with
      | nil => exact fun h => absurd (Option.some.inj h) (by decide)
      | cons b rest => exact fun h => hopen (Option.some.inj h ▸ List.mem_cons_self)
    show fromString (host ++ 58 :: _) = _
    rw [fromString_plain hhead hback, stoi_decimal, if_neg hcolon]
    show Except.ok (some _) = _
    rw [ofInt_toNat]

/-- `from_string` is exact just where the port is well written; it reads nothing past the
string, and it undoes `to_string`. -/
theorem address_iff (addr : Bytes) :
    (Exact addr ↔ WellWritten addr) ∧
    (∀ e, fromString addr = .error e → e ≠ .readPastEnd ∧ e ≠ .substrPastEnd) ∧
    ∀ a : SocketAddress, a.family = .ipv6 ∨ a.family = .ipv4 ∧ 58 ∉ a.host → 91 ∉ a.host →
      93 ∉ a.host → fromString a.toString = .ok (some a) := by
  refine ⟨exact_iff, fun e h => ?_, fun _ => fromString_toString⟩
  obtain rfl | rfl := fromString_error h
  · exact ⟨(fun h => nomatch h), (fun h => nomatch h)⟩
  · exact ⟨(fun h => nomatch h), (fun h => nomatch h)⟩

/-- A port that is no number is thrown out, one that is too large is cut. -/
theorem malformed_ports :
    let noNumber := (Text.ofString "host:abc").bytes
    let tooLarge := (Text.ofString "host:70000").bytes
    fromString noNumber = .error .invalidArgument ∧
      fromString tooLarge = .ok (some ⟨(Text.ofString "host").bytes, 4464, .ipv4⟩) ∧
      ¬ Exact noNumber ∧ ¬ Exact tooLarge := by
  have hthrows : fromString (Text.ofString "host:abc").bytes = .error .invalidArgument := by
    decide
  have hcut : fromString (Text.ofString "host:70000").bytes =
      .ok (some ⟨(Text.ofString "host").bytes, 4464, .ipv4⟩) := by decide
  refine ⟨hthrows, hcut, ?_, ?_⟩
  · rintro ⟨result, hresult, -⟩
    rw [hthrows] at hresult
    cases hresult
  · rintro ⟨result, hresult, hport⟩
    rw [hcut] at hresult
    obtain ⟨front, digits, haddr, hnot, -, -, hvalue⟩ := hport _ (Except.ok.inj hresult).symm
    have hsplit : (Text.ofString "host:70000").bytes =
        (Text.ofString "host").bytes ++ 58 :: (Text.ofString "70000").bytes := by decide
    have hdigits : (Text.ofString "70000").bytes = digits :=
      Text.suffix_inj (by decide) hnot (hsplit.symm.trans haddr)
    rw [← hdigits] at hvalue
    exact absurd hvalue (by decide)

end Cashew.Theorems.SocketAddress
