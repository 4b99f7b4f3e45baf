/-
  A BASE64 CHUNK of a link: `SubscriptionDecoder.decodeBase64Chunk`.

  Links carry Base64 with and without padding, in either alphabet and with line breaks in it.  The
  decoder drops what cannot belong to the text, restores the padding and takes the first of three
  codecs that accepts the result.
-/
import OlcVpn.Lib.Base64
import OlcVpn.Share.UriCodec

namespace OlcVpn.Share

open Kotlin Locations List
open String (ofList toList_ofList)
open Lib (Base64 forall_mem_of_all)

/-- `pad`. -/
def padText (value : String) : List Char :=
  let remainder := utf16Length value % 4
  if remainder = 0 then value.toList else value.toList ++ List.replicate (4 - remainder) '='

/-- `trim().filterNot { it == '\n' || it == '\r' || it == ' ' }`. -/
def compact (value : String) : String :=
  ofList ((trim value).toList.filter fun c => c != '\n' && c != '\r' && c != ' ')

/-- `decodeBase64Chunk`: the first codec that takes the text. -/
def decodeBase64Chunk (R : Platform) (value : String) : Option String :=
  if compact value = "" then none
  else
    let padded := padText (compact value)
    (((Base64.urlSafe.decode padded).or (Base64.standard.decode padded)).or
      (Base64.standard.decodeMime padded)).map R.decodeToString

/-! ## An unpadded text -/

/-- What is needed of an alphabet: none of its symbols is dropped, and each is one UTF-16 unit. -/
structure Dense (B : Base64) : Prop where
  solid : ∀ c ∈ B.symbols, isWhitespace c = false
  unit : ∀ c ∈ B.symbols, c.toNat ≤ 0xffff

/-- Neither alphabet has a character that a chunk is stripped of. -/
theorem dense_standard : Dense Base64.standard :=
  ⟨forall_mem_of_all (by decide), forall_mem_of_all (by decide)⟩

theorem dense_urlSafe : Dense Base64.urlSafe :=
  ⟨forall_mem_of_all (by decide), forall_mem_of_all (by decide)⟩

section Bare

variable {B : Base64} {bytes : List UInt8}

/-- So compacting takes nothing from a chunk. -/
theorem compact_bare (hB : Dense B) : compact (ofList (B.bare bytes)) = ofList (B.bare bytes) := by
  have hsolid : ∀ c ∈ B.bare bytes, isWhitespace c = false :=
    fun c hc => hB.solid c (Base64.mem_bare hc)
  have htrim : trim (ofList (B.bare bytes)) = ofList (B.bare bytes) := by
    refine trim_of_trimmed (trimmed_of_solid fun c hc => hsolid c ?_)
    rwa [toList_ofList] at hc
  have hfilter : (B.bare bytes).filter (fun c => c != '\n' && c != '\r' && c != ' ') =
      B.bare bytes := by
    refine filter_eq_self.mpr fun c hc => ?_
    have hnot : ∀ d, isWhitespace d = true → c ≠ d := by
      rintro d hd rfl
      rw [hsolid c hc] at hd
      cases hd
    simp [hnot '\n' (by decide), hnot '\r' (by decide), hnot ' ' (by decide)]
  rw [compact, htrim, toList_ofList, hfilter]

/-- The padding is restored from the length. -/
theorem padText_bare (hB : Dense B) : padText (ofList (B.bare bytes)) = B.encode bytes := by
  have hunits : utf16Length (ofList (B.bare bytes)) = (B.bare bytes).length := by
    rw [utf16Length, toList_ofList, countP_eq_zero.mpr, Nat.add_zero]
    intro c hc
    simpa using hB.unit c (Base64.mem_bare hc)
  rw [← Base64.repad_bare, Base64.repad, padText, hunits, toList_ofList]

theorem ofList_bare_ne (h : bytes ≠ []) : ofList (B.bare bytes) ≠ "" := by
  intro hempty
  refine Base64.bare_ne_nil (B := B) h ?_
  rw [← toList_ofList (l := B.bare bytes), hempty]
  rfl

end Bare

theorem utf8_ne_nil {s : String} (h : s ≠ "") : utf8 s ≠ [] := by
  intro hnil
  exact h (Platform.utf8_injective (s := s) (t := "") hnil)

section Read

variable (R : Platform) {text : String} (htext : text ≠ "")
include htext

/-- What the two strict codecs make of the chunk decides. -/
theorem decodeBase64Chunk_of_strict {B : Base64} (hB : Dense B)
    (h : (Base64.urlSafe.decode (B.encode (utf8 text))).or
      (Base64.standard.decode (B.encode (utf8 text))) =
      some (utf8 text)) : decodeBase64Chunk R (ofList (B.bare (utf8 text))) = some text := by
  rw [decodeBase64Chunk, compact_bare hB, if_neg (ofList_bare_ne (utf8_ne_nil htext))]
  dsimp only
  rw [padText_bare hB, h, Option.some_or, Option.map_some, Platform.decodeToString_utf8]

/-- A URL-SAFE CHUNK IS READ BACK, at the first codec. -/
theorem decodeBase64Chunk_urlSafe :
    decodeBase64Chunk R (ofList (Base64.urlSafe.bare (utf8 text))) = some text := by
  refine decodeBase64Chunk_of_strict R htext dense_urlSafe ?_
  rw [Base64.decode_encode, Option.some_or]

/-- A STANDARD CHUNK IS READ BACK: where the URL-safe codec reads it at all, it reads the same
    bytes, since the alphabets differ in two symbols only. -/
theorem decodeBase64Chunk_standard :
    decodeBase64Chunk R (ofList (Base64.standard.bare (utf8 text))) = some text := by
  refine decodeBase64Chunk_of_strict R htext dense_standard ?_
  rw [Base64.decode_encode]
  cases hurl : Base64.urlSafe.decode (Base64.standard.encode (utf8 text)) with
  | none => rfl
  | some bytes =>
    -- the text happens to be free of the two symbols in which the alphabets differ
    have hvalue : ∀ c ∈ Base64.standard.encode (utf8 text), ∀ n,
        Base64.urlSafe.value c = some n → Base64.standard.value c = some n := by
      intro c hc n hn
      obtain ⟨k, henc, hmem, -⟩ := Base64.bare_shape (B := Base64.standard) (utf8 text)
      rw [henc, mem_append] at hc
      refine Base64.value_urlSafe_standard c ?_ n hn
      obtain hc | hc := hc
      · exact mem_cons_of_mem _ (hmem c hc)
      · rw [eq_of_mem_replicate hc]
        exact mem_cons_self
    have hagree := Base64.decode_mono hvalue hurl
    rw [Base64.decode_encode] at hagree
    rw [hagree, Option.some_or]

end Read

/-! ## A text that is no chunk -/

end OlcVpn.Share
