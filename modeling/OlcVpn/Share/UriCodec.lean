/-
  THE URI HELPERS the share links are written and read with: `UriCodec` and `percentEncode`.

  Percent-encoding works on the UTF-8 bytes of a text.  Decoding goes through the text one UTF-16
  unit at a time: three units `%XY` are one byte, `+` is a space, everything else is the UTF-8 of
  that unit. A text without `%` and `+` is left as it is.  What the platforms do not agree on, the
  text of malformed bytes and the bytes of half a surrogate pair, is left open (`Platform`).
-/
import OlcVpn.Import.Links

namespace OlcVpn.Share

open Kotlin Locations List
open Option (some map_some bind_some)
open String (ofList toList_ofList toList_append ofList_toList utf8EncodeChar)

/-! ## UTF-8 -/

/-- What the platforms do differently. -/
structure Platform where
  /-- `decodeToString()` of bytes that are not UTF-8. -/
  malformed : List UInt8 → String
  /-- `encodeToByteArray()` of half a surrogate pair. -/
  surrogate : List UInt8

/-- `encodeToByteArray()`. -/
def utf8 (s : String) : List UInt8 := s.toList.flatMap utf8EncodeChar

namespace Platform

variable (R : Platform)

/-- `decodeToString()`. -/
def decodeToString (bytes : List UInt8) : String :=
  (String.fromUTF8? bytes.toByteArray).getD (R.malformed bytes)

/-- The bytes of a text are read as the text, on every platform. -/
theorem decodeToString_utf8 (s : String) : R.decodeToString (utf8 s) = s := by
  have hbytes : (utf8 s).toByteArray = s.toByteArray := by
    conv_rhs => rw [← ofList_toList (s := s)]
    rfl
  have hvalid : (utf8 s).toByteArray.IsValidUTF8 := hbytes ▸ s.isValidUTF8
  rw [decodeToString, String.fromUTF8?, dif_pos hvalid, Option.getD_some, String.fromUTF8]
  exact String.toByteArray_inj.mp hbytes

theorem utf8_injective {s t : String} (h : utf8 s = utf8 t) : s = t := by
  have R : Platform := ⟨fun _ => "", []⟩
  rw [← R.decodeToString_utf8 s, h, R.decodeToString_utf8]

/-- The bytes of one character, which is one or two UTF-16 units. -/
def encodeUnits (c : Char) : List UInt8 :=
  if c.toNat < 0x10000 then utf8EncodeChar c else R.surrogate ++ R.surrogate

end Platform

/-! ## Percent-encoding -/

def hexDigit (n : Nat) : Char := "0123456789ABCDEF".toList.getD n '0'

/-- `ch in 'A'..'Z' || ch in 'a'..'z' || ch in '0'..'9' || ch in "-_.~"`. -/
def isUnreserved (c : Char) : Bool := c.isAlphanum || c = '-' || c = '_' || c = '.' || c = '~'

def encodeByte (b : UInt8) : List Char :=
  if isUnreserved (Char.ofNat b.toNat) then [Char.ofNat b.toNat]
  else ['%', hexDigit (b.toNat / 16), hexDigit (b.toNat % 16)]

/-- `percentEncode`. -/
def percentEncode (s : String) : String := ofList ((utf8 s).flatMap encodeByte)

/-- `Character.digit(c, 16)`: ASCII and full-width letters, and every decimal digit. -/
def digit16 (c : Char) : Option Nat :=
  if 'a' ≤ c ∧ c ≤ 'f' then some (c.toNat - 'a'.toNat + 10)
  else if 'A' ≤ c ∧ c ≤ 'F' then some (c.toNat - 'A'.toNat + 10)
  else if 0xff21 ≤ c.toNat ∧ c.toNat ≤ 0xff26 then some (c.toNat - 0xff21 + 10)
  else if 0xff41 ≤ c.toNat ∧ c.toNat ≤ 0xff46 then some (c.toNat - 0xff41 + 10)
  else digitToIntOrNull c

/-- `toIntOrNull(16)` of two characters, as a byte; the first one may be a sign. -/
def hexByte (a b : Char) : Option UInt8 :=
  if a < '0' then
    if a = '-' then (digit16 b).map fun n => UInt8.ofNat (256 - n)
    else if a = '+' then (digit16 b).map UInt8.ofNat
    else none
  else (digit16 a).bind fun hi => (digit16 b).map fun lo => UInt8.ofNat (hi * 16 + lo)

/-- The loop of `percentDecode`. -/
def percentBytes (R : Platform) : List Char → List UInt8
  | [] => []
  | c :: rest =>
    match c, rest with
    | '%', a :: b :: tail =>
      match hexByte a b with
      | some byte => byte :: percentBytes R tail
      | none => 0x25 :: percentBytes R (a :: b :: tail)
    | '+', rest => 0x20 :: percentBytes R rest
    | c, rest => R.encodeUnits c ++ percentBytes R rest

/-- `percentDecode`. -/
def percentDecode (R : Platform) (value : String) : String :=
  if '%' ∉ value.toList ∧ '+' ∉ value.toList then value
  else R.decodeToString (percentBytes R value.toList)

section Percent

variable {R : Platform}

variable {c : Char}

theorem percentBytes_plain (hpercent : c ≠ '%') (hplus : c ≠ '+') (rest : List Char) :
    percentBytes R (c :: rest) = R.encodeUnits c ++ percentBytes R rest := by
  rw [percentBytes]
  · exact hplus
  · intro a b tail hc
    exact absurd hc hpercent

/-- What is known of each byte. -/
theorem byte_table : ∀ n < 256,
    (isUnreserved (Char.ofNat n) = true → Char.ofNat n ≠ '%' ∧ Char.ofNat n ≠ '+' ∧
      utf8EncodeChar (Char.ofNat n) = [UInt8.ofNat n] ∧ (Char.ofNat n).toNat < 0x10000) ∧
    hexByte (hexDigit (n / 16)) (hexDigit (n % 16)) = some (UInt8.ofNat n) ∧
    isUnreserved (hexDigit (n / 16)) = true := by
  decide +kernel

/-- An escape is read as its byte. -/
theorem percentBytes_encodeByte (b : UInt8) (rest : List Char) :
    percentBytes R (encodeByte b ++ rest) = b :: percentBytes R rest := by
  obtain ⟨hplain, hhex, -⟩ := byte_table b.toNat b.toNat_lt
  rw [UInt8.ofNat_toNat] at hplain hhex
  rw [encodeByte]
  split_ifs with hu
  · obtain ⟨hpercent, hplus, hbytes, hunit⟩ := hplain hu
    rw [singleton_append, percentBytes_plain hpercent hplus, Platform.encodeUnits, if_pos hunit,
      hbytes, singleton_append]
  · rw [cons_append, cons_append, cons_append, nil_append, percentBytes]
    simp only [hhex]

/-- So a sequence of escapes is read back, byte for byte. -/
theorem percentBytes_flatMap (bytes : List UInt8) :
    percentBytes R (bytes.flatMap encodeByte) = bytes := by
  induction bytes with
  | nil => rfl
  | cons b bytes ih => rw [flatMap_cons, percentBytes_encodeByte, ih]

/-- What an encoded text is made of. -/
theorem mem_percentEncode {s : String} (h : c ∈ (percentEncode s).toList) :
    isUnreserved c = true ∨ c = '%' := by
  rw [percentEncode, toList_ofList, mem_flatMap] at h
  obtain ⟨b, -, hc⟩ := h
  rw [encodeByte] at hc
  split_ifs at hc with hu
  · rw [mem_singleton.mp hc]
    exact .inl hu
  · have hlow : isUnreserved (hexDigit (b.toNat % 16)) = true := by
      have hlt : b.toNat % 16 * 16 < 256 := by omega
      have htable := (byte_table (b.toNat % 16 * 16) hlt).2.2
      rwa [Nat.mul_div_cancel _ (by omega)] at htable
    simp only [mem_cons, not_mem_nil, or_false] at hc
    obtain rfl | rfl | rfl := hc
    · exact .inr rfl
    · exact .inl (byte_table b.toNat b.toNat_lt).2.2
    · exact .inl hlow

/-- ENCODED TEXT HOLDS NO DELIMITER: only unreserved characters and percent signs. -/
theorem notMem_percentEncode (s : String) (hc : isUnreserved c = false ∧ c ≠ '%') :
    c ∉ (percentEncode s).toList := by
  intro h
  obtain h | h := mem_percentEncode h
  · rw [hc.1] at h
    cases h
  · exact hc.2 h

theorem toNat_of_isUnreserved (h : isUnreserved c = true) : c.toNat < 128 := by
  have halpha : c.isAlpha = (decide (65 ≤ c.toNat ∧ c.toNat ≤ 90) ||
      (decide (97 ≤ c.toNat) && decide (c.toNat ≤ 122))) := rfl
  have hdigit : c.isDigit = (decide (48 ≤ c.toNat) && decide (c.toNat ≤ 57)) := rfl
  simp only [isUnreserved, Char.isAlphanum, halpha, hdigit, Bool.or_eq_true, Bool.and_eq_true,
    decide_eq_true_eq] at h
  rcases h with ((((h | h) | rfl) | rfl) | rfl) | rfl
  · omega
  · omega
  all_goals decide

theorem solid_table :
    ∀ n < 128, isUnreserved (Char.ofNat n) = true → isWhitespace (Char.ofNat n) = false := by
  decide

theorem isWhitespace_of_isUnreserved (h : isUnreserved c = true) : isWhitespace c = false := by
  have htable := solid_table c.toNat (toNat_of_isUnreserved h)
  rw [Char.ofNat_toNat] at htable
  exact htable h

/-- EVERY TEXT IS READ BACK. -/
theorem percentDecode_percentEncode (R : Platform) (s : String) :
    percentDecode R (percentEncode s) = s := by
  have hbytes : percentBytes R (percentEncode s).toList = utf8 s := by
    rw [percentEncode, toList_ofList, percentBytes_flatMap]
  rw [percentDecode]
  split_ifs with hplain
  · -- nothing was escaped: the text is its own encoding
    have hself : ∀ l : List Char, '%' ∉ l → '+' ∉ l → (∀ c ∈ l, c.toNat < 0x10000) →
        percentBytes R l = l.flatMap utf8EncodeChar := by
      intro l
      induction l with
      | nil => intros; rfl
      | cons c l ih =>
        intro hpercent hplus hunits
        simp only [mem_cons, not_or] at hpercent hplus
        rw [percentBytes_plain (fun e => hpercent.1 e.symm) (fun e => hplus.1 e.symm),
          ih hpercent.2 hplus.2 fun d hd => hunits d (mem_cons_of_mem _ hd), Platform.encodeUnits,
          if_pos (hunits c mem_cons_self), flatMap_cons]
    have hunits : ∀ c ∈ (percentEncode s).toList, c.toNat < 0x10000 := by
      intro c hc
      obtain h | rfl := mem_percentEncode hc
      · exact (toNat_of_isUnreserved h).trans (by decide)
      · decide
    refine Platform.utf8_injective ?_
    rw [← hbytes, hself _ hplain.1 hplain.2 hunits]
    rfl
  · rw [hbytes, R.decodeToString_utf8]

end Percent

/-! ## Schemes -/

theorem substringFrom_append (start rest : String) {n : Nat}
    (hn : start.toList.length = n) : substringFrom (start ++ rest) n = rest := by
  rw [substringFrom, toList_append, ← hn, drop_left, ofList_toList]

variable {s host : String} {c : Char} {port : Int}

/-- A text is cut at its first delimiter. -/
theorem substring_cut {a b : List Char} (h : s.toList = a ++ c :: b) (ha : c ∉ a) :
    substringBefore s c = ofList a ∧ substringAfter s c = ofList b := by
  rw [substringBefore, substringAfter, h, takeWhile_cut ha, dropWhile_cut ha,
    drop_succ_cons, drop_zero]
  exact ⟨rfl, rfl⟩

/-! ## Host and port -/

/-- What stands before and after the last occurrence of a character. -/
def cutLast (s : String) (c : Char) : Option (String × String) :=
  if c ∈ s.toList then some (substringBeforeLast s c, substringAfterLast s c "") else none

/-- A text is cut at the last occurrence of a character. -/
theorem cutLast_of_cut {a b : List Char} (h : s.toList = a ++ c :: b) (hb : c ∉ b) :
    cutLast s c = some (ofList a, ofList b) := by
  have hs : s = ofList (a ++ c :: b) := by rw [← h, ofList_toList]
  have hmem : c ∈ s.toList := by simp [h]
  have hafter : substringAfterLast s c "" = ofList b := by
    rw [substringAfterLast, if_pos (by simpa using hmem), h, reverse_append, reverse_cons,
      append_assoc, singleton_append, takeWhile_cut (by simpa using hb), reverse_reverse]
  rw [cutLast, if_pos hmem, hafter, hs, substringBeforeLast_append hb]

/-- A text is its two parts, and the second one is free of the character. -/
theorem cutLast_spec {user rest : String} (h : cutLast s c = some (user, rest)) :
    s.toList = user.toList ++ c :: rest.toList ∧ c ∉ rest.toList := by
  have hmem : c ∈ s.toList := by
    by_contra hnot
    rw [cutLast, if_neg hnot] at h
    cases h
  obtain ⟨a, b, hrev, ha⟩ := eq_append_cons_of_mem (mem_reverse.mpr hmem)
  have hcut : s.toList = b.reverse ++ c :: a.reverse := by
    rw [← reverse_reverse s.toList, hrev]
    simp
  have hfree : c ∉ a.reverse := by simpa using ha
  rw [cutLast_of_cut hcut hfree] at h
  obtain ⟨rfl, rfl⟩ := Prod.mk.inj (some.inj h)
  exact ⟨by simpa using hcut, by simpa using ha⟩

/-- `splitHostPort`. -/
def splitHostPort (raw : String) : Option (String × Int) :=
  let value := substringBefore raw '/'
  if startsWith value "[" then
    let inner := value.toList.drop 1
    -- the host ends at the first closing bracket, and a colon has to follow it
    match inner.dropWhile (· != ']') with
    | _ :: ':' :: port =>
      (toIntOrNull (ofList port)).map fun port =>
        (ofList (inner.takeWhile (· != ']')), port)
    | _ => none
  else
    (cutLast value ':').bind fun cut =>
      if cut.1 = "" then none else (toIntOrNull cut.2).map fun port => (cut.1, port)

/-! ### Numbers -/

/-- Digits are read as the number they write. -/
theorem digitsOrNull_digits {cs : List Char} (h : ∀ c ∈ cs, c.isDigit = true) :
    digitsOrNull cs = some (Nat.ofDigitChars 10 cs 0) := by
  have hfold : ∀ n, cs.foldlM (fun value c => (digitToIntOrNull c).map (value * 10 + ·)) n =
      some (Nat.ofDigitChars 10 cs n) := by
    induction cs with
    | nil => intro n; rfl
    | cons c cs ih =>
      intro n
      have hc : digitToIntOrNull c = some (c.toNat - '0'.toNat) := by
        rw [digitToIntOrNull, if_pos (h c mem_cons_self)]
      rw [foldlM_cons, hc, Nat.ofDigitChars_cons]
      simp only [map_some, Option.bind_eq_bind, bind_some]
      rw [ih (fun d hd => h d (mem_cons_of_mem _ hd)), Nat.mul_comm]
  exact hfold 0

/-- A number in the range of `Int` is read back. -/
theorem toIntOrNull_toString {n : Int} (hlow : -2147483648 ≤ n) (hhigh : n ≤ 2147483647) :
    toIntOrNull (toString n) = some n := by
  have hdigits : ∀ k : Nat, digitsOrNull (toString k).toList = some k := by
    intro k
    rw [digitsOrNull_digits fun c hc => isDigit_of_mem_toString hc, Nat.toString_eq_ofList_toDigits,
      toList_ofList]
    simp
  have hne : ∀ k : Nat, ∃ c rest, (toString k).toList = c :: rest ∧ ¬ c < '0' := by
    intro k
    cases hk : (toString k).toList with
    | nil =>
      have hempty := hdigits k
      rw [hk] at hempty
      rw [Nat.toString_eq_ofList_toDigits, toList_ofList] at hk
      exact absurd hk Nat.toDigits_ne_nil
    | cons c rest =>
      have hdigit : c.isDigit = true := isDigit_of_mem_toString (hk ▸ mem_cons_self)
      refine ⟨c, rest, rfl, ?_⟩
      simp only [Char.isDigit, Bool.and_eq_true, decide_eq_true_eq] at hdigit
      exact Char.not_lt.mpr hdigit.1
  cases n with
  | ofNat k =>
    obtain ⟨c, rest, hk, hc⟩ := hne k
    have hvalue := hdigits k
    rw [hk] at hvalue
    rw [toString_ofNat, toIntOrNull, toIntegerOrNull, hk]
    simp only [if_neg hc, hvalue, bind_some, Int.ofNat_eq_natCast] at hlow hhigh ⊢
    rw [if_pos ⟨by omega, by omega⟩]
  | negSucc k =>
    obtain ⟨c, rest, hk, hc⟩ := hne (k + 1)
    have hvalue := hdigits (k + 1)
    have htext : (toString (Int.negSucc k)).toList = '-' :: (toString (k + 1)).toList := by
      rw [toString_negSucc, toList_append]
      rfl
    have hrest : (toString (k + 1)).toList ≠ [] := by rw [hk]; simp
    have hminus : ('-' : Char) < '0' := by decide
    rw [toIntOrNull, toIntegerOrNull, htext]
    dsimp only
    rw [if_pos hminus, if_neg hrest, if_pos rfl, hvalue, bind_some]
    have heq : (-((k + 1 : Nat) : Int)) = Int.negSucc k := by omega
    rw [heq, if_pos ⟨hlow, hhigh⟩]

/-- What is read fits an `Int`. -/
theorem range_of_toIntOrNull {n : Int} (h : toIntOrNull s = some n) :
    -2147483648 ≤ n ∧ n ≤ 2147483647 := by
  have hrange : ∀ m : Int, (if -2147483648 ≤ m ∧ m ≤ 2147483647 then some m else none) = some n →
      -2147483648 ≤ n ∧ n ≤ 2147483647 := by
    intro m hm
    split_ifs at hm with hin
    obtain rfl := some.inj hm
    exact hin
  unfold toIntOrNull toIntegerOrNull at h
  simp only at h
  split at h
  · cases h
  · split_ifs at h
    all_goals
      obtain ⟨m, -, hm⟩ := Option.bind_eq_some_iff.mp h
      exact hrange _ hm

/-! ### A host with its port -/

/-- What is read is a part of the text before the first slash. -/
theorem splitHostPort_spec {raw : String} (h : splitHostPort raw = some (host, port)) :
    '/' ∉ host.toList ∧ (∀ c ∈ host.toList, c ∈ raw.toList) ∧ -2147483648 ≤ port ∧
      port ≤ 2147483647 := by
  obtain ⟨hslash, -⟩ := substringBefore_spec raw '/'
  -- the host is a part of what stands before the slash
  suffices hpart : (∀ c ∈ host.toList, c ∈ (substringBefore raw '/').toList) ∧
      -2147483648 ≤ port ∧ port ≤ 2147483647 from
    ⟨fun hmem => hslash (hpart.1 _ hmem), fun c hc => mem_substringBefore (hpart.1 c hc), hpart.2⟩
  unfold splitHostPort at h
  dsimp only at h
  split_ifs at h with hbracket
  · split at h
    · obtain ⟨n, hn, he⟩ := Option.map_eq_some_iff.mp h
      obtain ⟨rfl, rfl⟩ := Prod.mk.inj he
      refine ⟨fun c hc => ?_, range_of_toIntOrNull hn⟩
      rw [toList_ofList] at hc
      exact mem_of_mem_drop ((List.takeWhile_prefix _).subset hc)
    · cases h
  · obtain ⟨⟨before, after⟩, hcut, hport⟩ := Option.bind_eq_some_iff.mp h
    split_ifs at hport with hempty
    obtain ⟨n, hn, he⟩ := Option.map_eq_some_iff.mp hport
    obtain ⟨rfl, rfl⟩ := Prod.mk.inj he
    obtain ⟨htext, -⟩ := cutLast_spec hcut
    refine ⟨fun c hc => ?_, range_of_toIntOrNull hn⟩
    rw [htext]
    exact mem_append_left _ hc

/-- `host:port`, as the composer writes it. -/
def hostPort (host : String) (port : Int) : String := host ++ ":" ++ toString port

theorem toList_hostPort (host : String) (port : Int) :
    (hostPort host port).toList = host.toList ++ ':' :: (toString port).toList := by
  rw [hostPort, toList_append, toList_append, append_assoc]
  rfl

theorem notMem_toString_int (n : Int) (hc : c.isDigit = false ∧ c ≠ '-') :
    c ∉ (toString n).toList := by
  intro h
  obtain h | h := mem_toString_int h
  · rw [hc.1] at h
    cases h
  · exact hc.2 h

/-- A number has no white space in it. -/
theorem solid_toString (n : Int) : ∀ c ∈ (toString n).toList, isWhitespace c = false := by
  intro c hc
  obtain hdigit | rfl := mem_toString_int hc
  · exact isWhitespace_of_isUnreserved (by simp [isUnreserved, Char.isAlphanum, hdigit])
  · decide

theorem toString_ne_nil (n : Int) : (toString n).toList ≠ [] := by
  cases n with
  | ofNat k =>
    rw [toString_ofNat]
    simp
  | negSucc k =>
    rw [toString_negSucc, toList_append]
    exact cons_ne_nil _ _

/-- Host and port hold a character only if the host does. -/
theorem notMem_hostPort (hhost : c ∉ host.toList)
    (hc : c ≠ ':' ∧ c.isDigit = false ∧ c ≠ '-') : c ∉ (hostPort host port).toList := by
  rw [toList_hostPort, mem_append, mem_cons, not_or, not_or]
  exact ⟨hhost, hc.1, notMem_toString_int port hc.2⟩

theorem substringBefore_hostPort (hslash : '/' ∉ host.toList) :
    substringBefore (hostPort host port) '/' = hostPort host port :=
  substringBefore_of_notMem (notMem_hostPort hslash (by decide))

/-- A HOST WITH ITS PORT IS READ BACK, an IPv6 address without its brackets included; an empty host
    is not. -/
theorem splitHostPort_join {host : String} {port : Int} (hslash : '/' ∉ host.toList)
    (hbracket : host.toList.head? ≠ some '[') (hlow : -2147483648 ≤ port)
      (hhigh : port ≤ 2147483647) :
    splitHostPort (hostPort host port) = if host = "" then none else some (host, port) := by
  have htext := toList_hostPort host port
  have hopen : startsWith (hostPort host port) "[" = false := by
    rw [Bool.eq_false_iff, Ne, startsWith_iff_head (d := '[') (by decide), htext]
    cases hchars : host.toList with
    | nil => simp
    | cons c rest => simpa [hchars] using hbracket
  have hcut : cutLast (hostPort host port) ':' = some (host, toString port) := by
    rw [cutLast_of_cut htext (notMem_toString_int port (by decide)), ofList_toList,
      ofList_toList]
  unfold splitHostPort
  dsimp only
  rw [substringBefore_hostPort hslash, hopen, if_neg (by decide), hcut, bind_some]
  dsimp only
  rw [toIntOrNull_toString hlow hhigh, map_some]

/-! ## Queries -/

/-- `replace("&amp;", "&")`. -/
def replaceAmp : List Char → List Char
  | '&' :: 'a' :: 'm' :: 'p' :: ';' :: rest => '&' :: replaceAmp rest
  | c :: rest => c :: replaceAmp rest
  | [] => []

/-- One `key=value`; the key alone has an empty value. -/
def queryPair (R : Platform) (pair : String) : Option (String × String) :=
  if isBlank pair then none
  else if '=' ∈ pair.toList then
    some (percentDecode R (substringBefore pair '='), percentDecode R (substringAfter pair '='))
  else some (percentDecode R pair, "")

/-- `parseQuery`: the pairs, in order. -/
def parseQuery (R : Platform) (query : String) : List (String × String) :=
  if isBlank query then []
  else (splitWhere (· == '&') (ofList (replaceAmp query.toList))).filterMap (queryPair R)

/-- `params[key]` of the map the pairs become: the last one counts. -/
def param (params : List (String × String)) (key : String) : Option String :=
  params.reverse.lookup key

/-- `joinToString("&") { (k, v) -> "$k=${percentEncode(v)}" }`. -/
def queryText (params : List (String × String)) : String :=
  joinToString "&" (params.map fun pair => pair.1 ++ "=" ++ percentEncode pair.2)

/-- A key that is its own encoding. -/
def PlainKey (key : String) : Prop := ∀ c ∈ key.toList, isUnreserved c = true

section Query

variable {R : Platform} {params : List (String × String)}

/-- The text of a parameter holds nothing that would end it. -/
theorem mem_pairText {pair : String × String} (hkey : PlainKey pair.1) {c : Char}
    (h : c ∈ (pair.1 ++ "=" ++ percentEncode pair.2).toList) :
    isUnreserved c = true ∨ c = '%' ∨ c = '=' := by
  rw [toList_append, toList_append, mem_append, mem_append] at h
  obtain (h | h) | h := h
  · exact .inl (hkey c h)
  · exact .inr (.inr (by simpa using h))
  · obtain h | h := mem_percentEncode h
    · exact .inl h
    · exact .inr (.inl h)

/-- What a query is made of. -/
theorem mem_queryText (hkeys : ∀ pair ∈ params, PlainKey pair.1) {c : Char}
    (h : c ∈ (queryText params).toList) : isUnreserved c = true ∨ c = '%' ∨ c = '=' ∨ c = '&' := by
  obtain h | ⟨part, hpart, hc⟩ := mem_joinToString h
  · exact .inr (.inr (.inr (by simpa using h)))
  · obtain ⟨pair, hpair, rfl⟩ := mem_map.mp hpart
    obtain h | h | h := mem_pairText (hkeys pair hpair) hc
    · exact .inl h
    · exact .inr (.inl h)
    · exact .inr (.inr (.inl h))

theorem replaceAmp_of_notMem {l : List Char} (h : ';' ∉ l) : replaceAmp l = l := by
  fun_induction replaceAmp l with
  | case1 rest ih => simp at h
  | case2 c rest hne ih => rw [ih fun hmem => h (mem_cons_of_mem _ hmem)]
  | case3 => rfl

theorem percentDecode_of_plainKey {key : String} (h : PlainKey key) :
    percentDecode R key = key := by
  have hnot : ∀ c, isUnreserved c = false → c ∉ key.toList := by
    intro c hc hmem
    rw [h c hmem] at hc
    cases hc
  rw [percentDecode, if_pos ⟨hnot _ (by decide), hnot _ (by decide)⟩]

/-- A pair is cut at its first equals sign. -/
theorem queryPair_cut {text key value : String}
    (htext : text.toList = key.toList ++ '=' :: value.toList)
    (hkey : PlainKey key) : queryPair R text = some (key, percentDecode R value) := by
  have hequals : '=' ∉ key.toList := by
    intro hmem
    exact absurd (hkey _ hmem) (by decide)
  have hmem : '=' ∈ text.toList := by
    rw [htext]
    exact mem_append_right _ mem_cons_self
  have hblank : isBlank text = false := by
    rw [isBlank, all_eq_false]
    exact ⟨'=', hmem, by decide⟩
  obtain ⟨hbefore, hafter⟩ := substring_cut htext hequals
  rw [queryPair, hblank, if_neg (by decide), if_pos hmem, hbefore, hafter, ofList_toList,
    ofList_toList,
    percentDecode_of_plainKey hkey]

/-- ONE PARAMETER IS READ BACK. -/
theorem queryPair_text {pair : String × String} (hkey : PlainKey pair.1) :
    queryPair R (pair.1 ++ "=" ++ percentEncode pair.2) = some pair := by
  have htext : (pair.1 ++ "=" ++ percentEncode pair.2).toList =
      pair.1.toList ++ '=' :: (percentEncode pair.2).toList := by
    rw [toList_append, toList_append, append_assoc]
    rfl
  rw [queryPair_cut htext hkey, percentDecode_percentEncode]

/-- A QUERY IS READ BACK pair by pair. -/
theorem parseQuery_queryText (hne : params ≠ []) (hkeys : ∀ pair ∈ params, PlainKey pair.1) :
    parseQuery R (queryText params) = params := by
  have hparts : ∀ part ∈ params.map (fun pair => pair.1 ++ "=" ++ percentEncode pair.2),
      ∀ c ∈ part.toList, (c == '&') = false := by
    intro part hpart c hc
    obtain ⟨pair, hpair, rfl⟩ := mem_map.mp hpart
    rw [beq_eq_false_iff_ne]
    rintro rfl
    obtain h | h | h := mem_pairText (hkeys pair hpair) hc
    all_goals exact absurd h (by decide)
  have hsplit := splitWhere_joinToString (p := (· == '&')) '&' (by decide)
    (by simpa using hne : params.map (fun pair => pair.1 ++ "=" ++ percentEncode pair.2) ≠
      []) hparts
  have hamp : ';' ∉ (queryText params).toList := by
    intro hmem
    obtain h | h | h | h := mem_queryText hkeys hmem
    all_goals exact absurd h (by decide)
  have hblank : isBlank (queryText params) = false := by
    obtain ⟨pair, rest, rfl⟩ := exists_cons_of_ne_nil hne
    rw [isBlank, all_eq_false]
    refine ⟨'=', ?_, by decide⟩
    rw [queryText, joinToString, toList_ofList, map_cons, map_cons]
    cases hrest : List.map String.toList
      (List.map (fun p => p.1 ++ "=" ++ percentEncode p.2) rest) with
    | nil => simp
    | cons l ls =>
      rw [intercalate_cons_cons]
      simp
  have hpairs : (params.map fun pair => pair.1 ++ "=" ++ percentEncode pair.2).filterMap
      (queryPair R) =
      params := by
    rw [filterMap_map]
    have hread : params.filterMap (queryPair R ∘ fun pair => pair.1 ++ "=" ++
        percentEncode pair.2) =
        params.filterMap some :=
      filterMap_congr fun pair hpair => queryPair_text (hkeys pair hpair)
    rw [hread, filterMap_some]
  rw [parseQuery, hblank, if_neg (by decide), replaceAmp_of_notMem hamp, ofList_toList]
  exact (congrArg _ hsplit).trans hpairs

end Query

/-! ### Optional parameters -/

/-- `buildList` with one conditional `add` a line. -/
def written (entries : List (Bool × String × String)) : List (String × String) :=
  (entries.filter (·.1)).map (·.2)

section Written

variable {entries : List (Bool × String × String)}

theorem mem_written {pair : String × String} : pair ∈ written entries ↔ (true, pair) ∈ entries := by
  rw [written, mem_map]
  constructor
  · rintro ⟨⟨added, pair⟩, hmem, rfl⟩
    obtain ⟨hmem, hadded⟩ := mem_filter.mp hmem
    obtain rfl : added = true := hadded
    exact hmem
  · intro hmem
    exact ⟨_, mem_filter.mpr ⟨hmem, rfl⟩, rfl⟩

/-- Keys that need no encoding stay so in what is written. -/
theorem plainKey_written (h : ∀ key ∈ entries.map (·.2.1), key.toList.all isUnreserved = true) :
    ∀ pair ∈ written entries, PlainKey pair.1 :=
  fun _ hpair => all_eq_true.mp (h _ (mem_map.mpr ⟨_, mem_written.mp hpair, rfl⟩))

variable {key : String}

theorem param_eq_none {params : List (String × String)} (h : ∀ pair ∈ params, pair.1 ≠ key) :
    param params key = none := by
  rw [param, lookup_eq_none_iff]
  intro pair hpair
  rw [bne_iff_ne]
  exact (h pair (mem_reverse.mp hpair)).symm

/-- A parameter that is there once is found. -/
theorem param_eq_some {params : List (String × String)} {value : String} (h : (key, value) ∈ params)
    (honce : ∀ pair ∈ params, pair.1 = key → pair = (key, value)) : param params key =
      some value := by
  cases hp : param params key with
  | none =>
    rw [param, lookup_eq_none_iff] at hp
    have hne := hp (key, value) (mem_reverse.mpr h)
    simp at hne
  | some other =>
    rw [param, lookup_eq_some_iff] at hp
    obtain ⟨l, l', hl, -⟩ := hp
    have hmem : (key, other) ∈ params := by
      rw [← mem_reverse, hl]
      simp
    rw [(Prod.mk.inj (honce _ hmem rfl)).2]

/-- A parameter is read if and only if it is added. -/
theorem param_written (hkeys : (entries.map (·.2.1)).Nodup) {added : Bool} {value : String}
    (h : (added, key, value) ∈ entries) :
    param (written entries) key = if added then some value else none := by
  have honce : ∀ entry ∈ entries, entry.2.1 = key → entry = (added, key, value) :=
    fun entry hentry hkey => inj_on_of_nodup_map hkeys hentry h hkey
  cases added with
  | true =>
    refine param_eq_some (mem_written.mpr h) fun pair hpair hkey => ?_
    exact (Prod.mk.inj (honce _ (mem_written.mp hpair) hkey)).2
  | false =>
    refine param_eq_none fun pair hpair hkey => ?_
    have := (Prod.mk.inj (honce _ (mem_written.mp hpair) hkey)).1
    cases this

theorem param_written_of_notMem (h : key ∉ entries.map (·.2.1)) :
    param (written entries) key = none := by
  refine param_eq_none fun pair hpair hkey => h ?_
  exact mem_map.mpr ⟨_, mem_written.mp hpair, hkey⟩

end Written

end OlcVpn.Share
