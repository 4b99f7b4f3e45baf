/-
  BASE64 over any alphabet of 64 symbols.

  Three bytes become four symbols; a last group of one or two bytes is filled up with `=`.  Decoding
  is STRICT: it takes complete groups only, padding only in the last one, and no set bit where the
  padding stands.

  ** What is here **
    • `decode_encode`: decoding gives the bytes back;
    • `bare`, the text without its padding, and `repad`, which restores it from the length alone
      (`repad_bare`);
    • `decode_mono`: two alphabets agree wherever both know the symbols;
    • `mem_bare`: an unpadded text is made of symbols only, so that whatever the alphabet lacks
      (separators, white space) never occurs in it.
-/
import Mathlib.Data.List.DropRight
import Mathlib.Data.List.Nodup

namespace OlcVpn.Lib

open List Option

/-- A table is checked entry by entry.  (To decide the statement itself would go through all
    characters.) -/
theorem forall_mem_of_all {α : Type*} {p : α → Prop} [DecidablePred p] {l : List α}
    (h : l.all (fun a => decide (p a)) = true) : ∀ a ∈ l, p a :=
  fun a ha => of_decide_eq_true (all_eq_true.mp h a ha)

/-- An alphabet; the pad character is no symbol. -/
structure Base64 where
  symbols : List Char
  length_symbols : symbols.length = 64
  nodup : symbols.Nodup
  pad_notMem : '=' ∉ symbols

namespace Base64

variable (B : Base64)

def symbol (n : Nat) : Char := B.symbols.getD n '='

def value (c : Char) : Option Nat := B.symbols.findIdx? (· = c)

/-- The symbols of a group of three bytes. -/
def group (a b c : Nat) : List Char :=
  [B.symbol (a / 4), B.symbol (a % 4 * 16 + b / 16), B.symbol (b % 16 * 4 + c / 64),
    B.symbol (c % 64)]

def encode : List UInt8 → List Char
  | [] => []
  | [a] => (B.group a.toNat 0 0).take 2 ++ ['=', '=']
  | [a, b] => (B.group a.toNat b.toNat 0).take 3 ++ ['=']
  | a :: b :: c :: rest => B.group a.toNat b.toNat c.toNat ++ encode rest

/-- The bytes of a group of four symbols. -/
def bytes (w x y z : Nat) : List UInt8 :=
  [UInt8.ofNat (w * 4 + x / 16), UInt8.ofNat (x % 16 * 16 + y / 4), UInt8.ofNat (y % 4 * 64 + z)]

/-- A last group that is filled up. -/
def decodePadded (w x y : Char) : Option (List UInt8) :=
  if y = '=' then
    (B.value w).bind fun w => (B.value x).bind fun x =>
      if x % 16 = 0 then some ((bytes w x 0 0).take 1) else none
  else
    (B.value w).bind fun w => (B.value x).bind fun x => (B.value y).bind fun y =>
      if y % 4 = 0 then some ((bytes w x y 0).take 2) else none

def decode : List Char → Option (List UInt8)
  | [] => some []
  | w :: x :: y :: z :: rest =>
    if z = '=' ∧ rest = [] then B.decodePadded w x y
    else
      (B.value w).bind fun w => (B.value x).bind fun x => (B.value y).bind fun y =>
        (B.value z).bind fun z => (decode rest).map fun tail => bytes w x y z ++ tail
  | _ => none

/-- MIME decoding: whatever is neither a symbol nor a pad is ignored. -/
def decodeMime (l : List Char) : Option (List UInt8) :=
  B.decode (l.filter fun c => B.symbols.contains c || c = '=')

/-! ## Symbols -/

variable {B}

variable {n : Nat} {bs : List UInt8} {c : Char}

theorem symbol_mem (h : n < 64) : B.symbol n ∈ B.symbols := by
  have hlt : n < B.symbols.length := by rw [B.length_symbols]; exact h
  rw [symbol, getD_eq_getElem?_getD, getElem?_eq_getElem hlt, getD_some]
  exact getElem_mem hlt

theorem symbol_ne_pad (h : n < 64) : B.symbol n ≠ '=' := by
  intro e
  exact B.pad_notMem (e ▸ symbol_mem h)

theorem value_symbol (h : n < 64) : B.value (B.symbol n) = some n := by
  have hlt : n < B.symbols.length := by rw [B.length_symbols]; exact h
  rw [symbol, getD_eq_getElem?_getD, getElem?_eq_getElem hlt, getD_some, value,
    findIdx?_eq_some_iff_getElem]
  refine ⟨hlt, by simp, fun j hj => ?_⟩
  have hne : B.symbols[j] ≠ B.symbols[n] := by
    intro e
    have := (List.Nodup.getElem_inj_iff B.nodup).mp e
    omega
  simpa using hne

section Groups

variable {a b c : Nat} (ha : a < 256) (hb : b < 256) (hc : c < 256)
include ha hb hc

theorem sextets_lt : a / 4 < 64 ∧ a % 4 * 16 + b / 16 < 64 ∧ b % 16 * 4 + c / 64 < 64 ∧
    c % 64 < 64 := by
  omega

theorem mem_group {s : Char} (hs : s ∈ B.group a b c) : s ∈ B.symbols := by
  obtain ⟨h0, h1, h2, h3⟩ := sextets_lt ha hb hc
  simp only [group, mem_cons, not_mem_nil, or_false] at hs
  obtain rfl | rfl | rfl | rfl := hs
  · exact symbol_mem h0
  · exact symbol_mem h1
  · exact symbol_mem h2
  · exact symbol_mem h3

omit ha in
theorem bytes_sextets : bytes (a / 4) (a % 4 * 16 + b / 16) (b % 16 * 4 + c / 64) (c % 64) =
      [UInt8.ofNat a, UInt8.ofNat b, UInt8.ofNat c] := by
  have h0 : a / 4 * 4 + (a % 4 * 16 + b / 16) / 16 = a := by omega
  have h1 : (a % 4 * 16 + b / 16) % 16 * 16 + (b % 16 * 4 + c / 64) / 4 = b := by omega
  have h2 : (b % 16 * 4 + c / 64) % 4 * 64 + c % 64 = c := by omega
  rw [bytes, h0, h1, h2]

end Groups

/-- DECODING GIVES THE BYTES BACK. -/
theorem decode_encode (bs : List UInt8) : B.decode (B.encode bs) = some bs := by
  have hzero : (0 : Nat) < 256 := by omega
  fun_induction encode B bs with
  | case1 => rfl
  | case2 a =>
    obtain ⟨h0, h1, -, -⟩ := sextets_lt a.toNat_lt hzero hzero
    have hbits : (a.toNat % 4 * 16 + 0 / 16) % 16 = 0 := by omega
    have hbytes := bytes_sextets (a := a.toNat) hzero hzero
    simp only [group, take_succ_cons, take_zero, cons_append, nil_append, decode,
      and_self, if_true, decodePadded, value_symbol h0, value_symbol h1, bind_some, hbits]
    simpa [bytes] using congrArg (List.take 1) hbytes
  | case3 a b =>
    obtain ⟨h0, h1, h2, -⟩ := sextets_lt a.toNat_lt b.toNat_lt hzero
    have hbits : (b.toNat % 16 * 4 + 0 / 64) % 4 = 0 := by omega
    have hbytes := bytes_sextets (a := a.toNat) b.toNat_lt hzero
    simp only [group, take_succ_cons, take_zero, cons_append, nil_append, decode,
      and_self, if_true, decodePadded, if_neg (symbol_ne_pad h2), value_symbol h0, value_symbol h1,
      value_symbol h2, bind_some, hbits]
    simpa [bytes] using congrArg (List.take 2) hbytes
  | case4 a b c rest ih =>
    obtain ⟨h0, h1, h2, h3⟩ := sextets_lt a.toNat_lt b.toNat_lt c.toNat_lt
    have hpad : ¬ (B.symbol (c.toNat % 64) = '=' ∧ B.encode rest = []) :=
      fun h => symbol_ne_pad h3 h.1
    simp [group, decode, if_neg hpad, value_symbol h0, value_symbol h1, value_symbol h2,
      value_symbol h3, ih, bytes_sextets b.toNat_lt c.toNat_lt, UInt8.ofNat_toNat]

/-! ## Without padding -/

variable (B) in
/-- The text without its padding: `trimEnd('=')`. -/
def bare (bs : List UInt8) : List Char := (B.encode bs).rdropWhile (· = '=')

/-- Padding restored from the length. -/
def repad (l : List Char) : List Char :=
  if l.length % 4 = 0 then l else l ++ List.replicate (4 - l.length % 4) '='

/-- A text is symbols, then at most two pad characters that fill the last group. -/
theorem encode_shape (bs : List UInt8) : ∃ body k, B.encode bs = body ++ List.replicate k '=' ∧
    (∀ c ∈ body, c ∈ B.symbols) ∧ k < 4 ∧ (body.length + k) % 4 = 0 ∧ (bs ≠ [] → body ≠ []) := by
  have hzero : (0 : Nat) < 256 := by omega
  fun_induction encode B bs with
  | case1 => exact ⟨[], 0, rfl, by simp, by omega, rfl, by simp⟩
  | case2 a =>
    exact ⟨_, 2, rfl, fun c hc => mem_group a.toNat_lt hzero hzero (mem_of_mem_take hc), by omega,
      by simp [group], fun _ => by simp [group]⟩
  | case3 a b =>
    exact ⟨_, 1, rfl, fun c hc => mem_group a.toNat_lt b.toNat_lt hzero (mem_of_mem_take hc),
      by omega, by simp [group], fun _ => by simp [group]⟩
  | case4 a b c rest ih =>
    obtain ⟨body, k, heq, hbody, hk, hlen, -⟩ := ih
    refine ⟨B.group a.toNat b.toNat c.toNat ++ body, k, by rw [heq, append_assoc], ?_, hk, ?_,
      fun _ => by simp [group]⟩
    · intro s hs
      obtain hs | hs := mem_append.mp hs
      · exact mem_group a.toNat_lt b.toNat_lt c.toNat_lt hs
      · exact hbody s hs
    · have hfour : (B.group a.toNat b.toNat c.toNat).length = 4 := rfl
      rw [length_append, hfour]
      omega

theorem rdropWhile_pads {body : List Char} (hbody : ∀ c ∈ body, c ∈ B.symbols) (k : Nat) :
    (body ++ List.replicate k '=').rdropWhile (· = '=') = body := by
  have hlast : ∀ c ∈ body, c ≠ '=' := fun c hc e => B.pad_notMem (e ▸ hbody c hc)
  rw [List.rdropWhile, reverse_append, reverse_replicate, dropWhile_append_of_pos (by simp)]
  cases hrev : body.reverse with
  | nil => simpa using hrev
  | cons c rest =>
    have hc : c ≠ '=' := hlast c (mem_reverse.mp (hrev ▸ mem_cons_self))
    rw [dropWhile_cons_of_neg (by simpa using hc), ← hrev, reverse_reverse]

/-- What the bare text is made of. -/
theorem bare_shape (bs : List UInt8) : ∃ k, B.encode bs = B.bare bs ++ List.replicate k '=' ∧
    (∀ c ∈ B.bare bs, c ∈ B.symbols) ∧ k < 4 ∧ ((B.bare bs).length + k) % 4 = 0 ∧
    (bs ≠ [] → B.bare bs ≠ []) := by
  obtain ⟨body, k, heq, hbody, hk, hlen, hne⟩ := encode_shape (B := B) bs
  have hbare : B.bare bs = body := by rw [bare, heq, rdropWhile_pads hbody]
  exact ⟨k, hbare ▸ heq, hbare ▸ hbody, hk, hbare ▸ hlen, hbare ▸ hne⟩

theorem mem_bare (h : c ∈ B.bare bs) : c ∈ B.symbols := by
  obtain ⟨_, -, hmem, -⟩ := bare_shape (B := B) bs
  exact hmem c h

theorem bare_ne_nil (h : bs ≠ []) : B.bare bs ≠ [] := by
  obtain ⟨_, -, -, -, -, hne⟩ := bare_shape (B := B) bs
  exact hne h

/-- THE PADDING IS RESTORED from the length alone. -/
theorem repad_bare (bs : List UInt8) : repad (B.bare bs) = B.encode bs := by
  obtain ⟨k, heq, -, hk, hlen, -⟩ := bare_shape (B := B) bs
  rw [repad, heq]
  split_ifs with hzero
  · obtain rfl : k = 0 := by omega
    simp
  · have hpads : 4 - (B.bare bs).length % 4 = k := by omega
    rw [hpads]

/-- A bare text decodes once its padding is restored. -/
theorem decode_repad_bare (bs : List UInt8) : B.decode (repad (B.bare bs)) = some bs := by
  rw [repad_bare, decode_encode]

/-- What one alphabet decodes, so does another that agrees with it on the text. -/
theorem decode_mono {C : Base64} {l : List Char}
    (hvalue : ∀ c ∈ l, ∀ n, C.value c = some n → B.value c = some n) (h : C.decode l = some bs) :
    B.decode l = some bs := by
  fun_induction decode C l generalizing bs with
  | case1 => exact h
  | case2 w x y z rest hpad =>
    obtain ⟨rfl, rfl⟩ := hpad
    rw [decode, if_pos ⟨rfl, rfl⟩]
    unfold decodePadded at h ⊢
    split_ifs at h ⊢ with hy
    · simp only [bind_eq_some_iff] at h
      obtain ⟨v, hv, u, hu, h⟩ := h
      rw [hvalue w (by simp) v hv, bind_some, hvalue x (by simp) u hu, bind_some]
      exact h
    · simp only [bind_eq_some_iff] at h
      obtain ⟨v, hv, u, hu, t, ht, h⟩ := h
      rw [hvalue w (by simp) v hv, bind_some, hvalue x (by simp) u hu, bind_some,
        hvalue y (by simp) t ht, bind_some]
      exact h
  | case3 w x y z rest hpad ih =>
    simp only [bind_eq_some_iff, map_eq_some_iff] at h
    obtain ⟨v, hv, u, hu, t, ht, q, hq, tail, htail, rfl⟩ := h
    have hrest : B.decode rest = some tail :=
      ih (fun c hc => hvalue c (by simp [hc])) htail
    rw [decode, if_neg hpad, hvalue w (by simp) v hv, bind_some, hvalue x (by simp) u hu,
      bind_some, hvalue y (by simp) t ht, bind_some, hvalue z (by simp) q hq,
      bind_some, hrest, map_some]
  | case4 => cases h

/-! ## The two alphabets -/

/-- Letters and digits: what the alphabets share. -/
def alphanumeric : List Char :=
  "ABCDEFGHIJKLMNOPQRSTUVWXYZabcdefghijklmnopqrstuvwxyz0123456789".toList

def standard : Base64 where
  symbols := alphanumeric ++ ['+', '/']
  length_symbols := by decide +kernel
  nodup := by decide +kernel
  pad_notMem := by decide +kernel

def urlSafe : Base64 where
  symbols := alphanumeric ++ ['-', '_']
  length_symbols := by decide +kernel
  nodup := by decide +kernel
  pad_notMem := by decide +kernel

/-- Wherever the URL-safe alphabet knows a standard symbol, both give it the same value. -/
theorem value_urlSafe_standard : ∀ c ∈ '=' :: standard.symbols,
    ∀ n, urlSafe.value c = some n → standard.value c = some n := by
  have htable : ∀ c ∈ '=' :: standard.symbols,
      urlSafe.value c = none ∨ urlSafe.value c = standard.value c :=
    forall_mem_of_all (by decide +kernel)
  intro c hc n hn
  obtain h | h := htable c hc
  · rw [h] at hn
    cases hn
  · rw [← h, hn]

end Base64

end OlcVpn.Lib
