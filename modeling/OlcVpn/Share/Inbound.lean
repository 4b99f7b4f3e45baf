/-
  THE `yptun://inbound` LINK: a whole location as JSON, compressed where that helps, in Base64.

  JSON, UTF-8 and DEFLATE are libraries here (`LocationWire`); Base64 is not, because what the
  parser relies on is the SHAPE of the payload: no character of it may end a parameter, its padding
  has to be restored from its length, and white space that a chat client puts into it has to be told
  apart from it.

  `normalized()` copies most fields of a location as they are.  What the model of a location does
  not have, the finer fields of its sections, is one opaque value beside it (`Location.rest`).

  THE SPECIFICATION (`parse_compose`): a link is read back as the normalised location, also with
  white space anywhere in its payload.  Normalising again on arrival changes nothing.
-/
import OlcVpn.Import.Links
import OlcVpn.Lib.Base64

namespace OlcVpn.Share

open Kotlin Locations Lib List
open String (ofList toList_ofList toList_append)

/-! ## Locations on the wire -/

/-- A location: the fields `normalized()` looks at, and all others. -/
structure Location (ρ : Type) where
  config : LocationConfig
  rest : ρ

def Location.normalized {ρ : Type} (c : Location ρ) : Location ρ :=
  { c with config := c.config.normalized }

theorem Location.normalized_normalized {ρ : Type} (c : Location ρ) :
    c.normalized.normalized = c.normalized := by
  rw [Location.normalized, Location.normalized, LocationConfig.normalized_normalized]

/-- The libraries a link is made with. -/
structure LocationWire (ρ : Type) where
  /-- The JSON text as UTF-8. -/
  encode : Location ρ → List UInt8
  decode : List UInt8 → Option (Location ρ)
  /-- Missing on some platforms. -/
  deflateOrNull : List UInt8 → Option (List UInt8)
  inflateOrNull : List UInt8 → Option (List UInt8)

variable {ρ : Type}

namespace LocationWire

variable (W : LocationWire ρ)

/-- The libraries are inverse pairs on what a location becomes, and write something. -/
structure Faithful (c : Location ρ) : Prop where
  decode_encode : W.decode (W.encode c) = some c
  encode_ne_nil : W.encode c ≠ []
  inflate_deflate : ∀ z, W.deflateOrNull (W.encode c) = some z →
    W.inflateOrNull z = some (W.encode c)
  deflate_ne_nil : ∀ z, W.deflateOrNull (W.encode c) = some z → z ≠ []

/-- The bytes that are sent, and whether they are compressed. -/
def sent (payload : List UInt8) : Bool × List UInt8 :=
  match W.deflateOrNull payload with
  | some z => if z.length < payload.length then (true, z) else (false, payload)
  | none => (false, payload)

/-- The payload of a link, taken apart. -/
def inboundPayload (compressed : Bool) (payload : String) : Option (Location ρ) :=
  (Base64.urlSafe.decode (Base64.repad payload.toList)).bind fun raw =>
    (if compressed then W.inflateOrNull raw else some raw).bind W.decode

end LocationWire

/-! ## The codec -/

section Codec

variable (W : LocationWire ρ)

/-- What stands before the payload. -/
def linkHead (compressed : Bool) : String :=
  inboundPrefix ++ if compressed then "?v=2&c=" else "?v=1&d="

def linkPayload (c : Location ρ) : String :=
  ofList (Base64.urlSafe.bare (W.sent (W.encode c.normalized)).2)

/-- `YptunInboundCodec.compose`. -/
def compose (c : Location ρ) : String :=
  linkHead (W.sent (W.encode c.normalized)).1 ++ linkPayload W c

/-- `YptunInboundCodec.parse`. -/
def parse (uri : String) : Option (Location ρ) :=
  let t := trim uri
  if !startsWith t inboundPrefix then none
  else
    (extractData t).bind fun data =>
      (W.inboundPayload data.1 (withoutWhitespace data.2)).map Location.normalized

/-- It is the parser the importer uses, with these libraries. -/
theorem parse_config (P : LinkParsers) (uri : String) : (parse W uri).map Location.config =
      parseInbound { P with inboundPayload := fun compressed payload =>
        (W.inboundPayload compressed payload).map Location.config } uri := by
  simp only [parse, parseInbound]
  split_ifs
  · rfl
  · cases extractData (trim uri) with
    | none => rfl
    | some data =>
      simp only [Option.bind_some, Option.map_map]
      rfl

end Codec

/-! ## Taking a link apart -/

/-- Nothing that ends a parameter, and something to read. -/
structure Payload (text : List Char) : Prop where
  clean : ∀ c ∈ text, c ≠ '&' ∧ c ≠ ';' ∧ c ≠ '#'
  inked : ∃ c ∈ text, isWhitespace c = false

theorem extractData_link (compressed : Bool) {text : List Char} (h : Payload text) :
    extractData (linkHead compressed ++ ofList text) = some (compressed, ofList text) := by
  -- the parameters, in front of the payload
  obtain ⟨version, key, hhead, hversion, hkey⟩ : ∃ version key : List Char,
      (linkHead compressed).toList = inboundPrefix.toList ++
      '?' :: (version ++ '&' :: (key ++ ['='])) ∧
      (version = ['v', '=', '1'] ∨ version = ['v', '=', '2']) ∧
      key = if compressed then ['c'] else ['d'] := by
    cases compressed with
    | true => exact ⟨['v', '=', '2'], ['c'], by decide, .inr rfl, rfl⟩
    | false => exact ⟨['v', '=', '1'], ['d'], by decide, .inl rfl, rfl⟩
  have htext : (linkHead compressed ++ ofList text).toList =
      inboundPrefix.toList ++ '?' :: (version ++ '&' :: (key ++ '=' :: text)) := by
    rw [toList_append, hhead, toList_ofList]
    simp
  have hstart : startsWith (linkHead compressed ++ ofList text) inboundPrefix = true := by
    rw [startsWith, htext, isPrefixOf_iff_prefix]
    exact prefix_append _ _
  have hremove : removeStart (linkHead compressed ++ ofList text) inboundPrefix =
      ofList ('?' :: (version ++ '&' :: (key ++ '=' :: text))) := by
    rw [removeStart, if_pos hstart, htext, drop_left]
  have hquery : substringAfter (ofList ('?' :: (version ++ '&' :: (key ++ '=' :: text)))) '?' =
      ofList (version ++ '&' :: (key ++ '=' :: text)) := by
    rw [substringAfter, toList_ofList]
    rfl
  have hclean : ∀ c ∈ key ++ '=' :: text, c ≠ '&' ∧ c ≠ ';' ∧ c ≠ '#' := by
    intro c hc
    obtain hc | hc := mem_append.mp hc
    · subst hkey
      cases compressed <;> simp_all
    · obtain rfl | hc := mem_cons.mp hc
      · decide
      · exact h.clean c hc
  have hversionClean : ∀ c ∈ version, c ≠ '&' ∧ c ≠ ';' ∧ c ≠ '#' ∧ c ≠ '?' := by
    obtain rfl | rfl := hversion <;> exact forall_mem_of_all (by decide)
  have hfragment : substringBefore (ofList (version ++ '&' :: (key ++ '=' :: text))) '#' =
      ofList (version ++ '&' :: (key ++ '=' :: text)) := by
    rw [substringBefore, toList_ofList, takeWhile_of_notMem]
    intro hmem
    obtain hmem | hmem := mem_append.mp hmem
    · exact (hversionClean _ hmem).2.2.1 rfl
    · obtain hmem | hmem := mem_cons.mp hmem
      · cases hmem
      · exact (hclean _ hmem).2.2 rfl
  have hsplit : splitWhere (fun c => c = '&' || c = ';')
      (ofList (version ++ '&' :: (key ++ '=' :: text))) =
      [ofList version, ofList (key ++ '=' :: text)] := by
    rw [splitWhere, toList_ofList, splitOnP_append_cons_of_forall_mem (by
        intro c hc
        obtain ⟨h1, h2, -⟩ := hversionClean c hc
        simp [h1, h2]) '&' (by decide), splitOnP_eq_singleton (by
        intro c hc
        obtain ⟨h1, h2, -⟩ := hclean c hc
        simp [h1, h2])]
    rfl
  have hblank : isNotBlank (ofList text) = true := by
    obtain ⟨c, hc, hwhite⟩ := h.inked
    rw [isNotBlank, isBlank, toList_ofList, Bool.not_eq_true', all_eq_false]
    exact ⟨c, hc, by simp [hwhite]⟩
  have hne : ofList (version ++ '&' :: (key ++ '=' :: text)) ≠ "" := by
    intro e
    have := congrArg String.toList e
    simp at this
  have hfirst : substringBefore (ofList version) '=' = "v" := by
    obtain rfl | rfl := hversion <;> decide
  have hkeyClean : '=' ∉ key := by
    subst hkey
    cases compressed <;> decide
  have hsecond : substringBefore (ofList (key ++ '=' :: text)) '=' = ofList key := by
    rw [substringBefore, toList_ofList, takeWhile_cut hkeyClean]
  have hvalue : substringAfter (ofList (key ++ '=' :: text)) '=' = ofList text := by
    rw [substringAfter, toList_ofList, dropWhile_cut hkeyClean]
    rfl
  have hname : ofList key = if compressed then "c" else "d" := by
    subst hkey
    cases compressed <;> rfl
  simp only [extractData, hremove, hquery, hfragment, if_neg hne, hsplit, findSome?_cons, hfirst,
    hsecond, hvalue, hblank, hname, and_true]
  cases compressed <;> simp

/-! ## Reading a link back -/

theorem not_whitespace_urlSafe : ∀ c ∈ Base64.urlSafe.symbols,
    isWhitespace c = false ∧ c ≠ '&' ∧ c ≠ ';' ∧ c ≠ '#' := forall_mem_of_all (by decide)

/-- The payload itself has no white space. -/
theorem withoutWhitespace_linkPayload (W : LocationWire ρ) (c : Location ρ) :
    withoutWhitespace (linkPayload W c) = linkPayload W c := by
  refine withoutWhitespace_eq_self fun s hs => ?_
  rw [linkPayload, toList_ofList] at hs
  exact (not_whitespace_urlSafe s (Base64.mem_bare hs)).1

section RoundTrip

variable {W : LocationWire ρ} {c : Location ρ}

theorem sent_ne_nil (h : W.Faithful c) : (W.sent (W.encode c)).2 ≠ [] := by
  unfold LocationWire.sent
  cases hz : W.deflateOrNull (W.encode c) with
  | none => exact h.encode_ne_nil
  | some z =>
    simp only
    split_ifs
    · exact h.deflate_ne_nil z hz
    · exact h.encode_ne_nil

/-- Whichever form was chosen, the payload is the location. -/
theorem inboundPayload_sent (h : W.Faithful c) : W.inboundPayload (W.sent (W.encode c)).1
      (ofList (Base64.urlSafe.bare (W.sent (W.encode c)).2)) = some c := by
  rw [LocationWire.inboundPayload, toList_ofList, Base64.decode_repad_bare, Option.bind_some]
  unfold LocationWire.sent
  cases hz : W.deflateOrNull (W.encode c) with
  | none => simpa using h.decode_encode
  | some z =>
    by_cases hsmaller : z.length < (W.encode c).length
    · simpa [hsmaller, h.inflate_deflate z hz] using h.decode_encode
    · simpa [hsmaller] using h.decode_encode

/-- A payload with white space in it, trimmed at its end, is still one. -/
theorem payload_of_inked {text payload : List Char} (hinked : inked text = payload)
    (hsymbols : ∀ s ∈ payload, s ∈ Base64.urlSafe.symbols) (hne : payload ≠ []) : Payload text where
  clean s hs := by
    cases hwhite : isWhitespace s with
    | true =>
      refine ⟨?_, ?_, ?_⟩ <;> (rintro rfl; revert hwhite; decide)
    | false =>
      have hmem : s ∈ payload := by
        rw [← hinked, inked, mem_filter, hwhite]
        exact ⟨hs, rfl⟩
      exact (not_whitespace_urlSafe s (hsymbols s hmem)).2
  inked := by
    obtain ⟨s, hs⟩ := exists_mem_of_ne_nil payload hne
    rw [← hinked, inked, mem_filter] at hs
    exact ⟨s, hs.1, by simpa using hs.2⟩

/-- Trimming a link trims the end of its payload. -/
theorem trim_link (compressed : Bool) {text : List Char} (h : ∃ c ∈ text, isWhitespace c = false) :
    trim (linkHead compressed ++ ofList text) =
      linkHead compressed ++ ofList (text.rdropWhile isWhitespace) := by
  have hfront : ((linkHead compressed).toList ++ text).dropWhile isWhitespace =
      (linkHead compressed).toList ++ text := by
    have hhead : (linkHead compressed).toList = 'y' :: (linkHead compressed).toList.tail := by
      cases compressed <;> decide
    rw [hhead, cons_append, dropWhile_cons_of_neg (by decide)]
  have hback : ((linkHead compressed).toList ++ text).rdropWhile isWhitespace =
      (linkHead compressed).toList ++ text.rdropWhile isWhitespace := by
    have hne : text.reverse.dropWhile isWhitespace ≠ [] := by
      rw [Ne, dropWhile_eq_nil_iff]
      obtain ⟨c, hc, hwhite⟩ := h
      intro hall
      have := hall c (mem_reverse.mpr hc)
      rw [hwhite] at this
      cases this
    rw [List.rdropWhile, List.rdropWhile, reverse_append, dropWhile_append]
    simp [hne]
  rw [trim, trimWhere, toList_append, toList_ofList, hfront, hback, String.ofList_append,
    String.ofList_toList]

/-- A LINK IS READ BACK, whatever white space was put into its payload. -/
theorem parse_compose (h : W.Faithful c.normalized) : parse W (compose W c) = some c.normalized ∧
    ∀ text, withoutWhitespace text = linkPayload W c →
      parse W (linkHead (W.sent (W.encode c.normalized)).1 ++ text) = some c.normalized := by
  have hwrapped : ∀ text, withoutWhitespace text = linkPayload W c →
      parse W (linkHead (W.sent (W.encode c.normalized)).1 ++ text) = some c.normalized := by
    intro text htext
    have hinked : inked text.toList = Base64.urlSafe.bare (W.sent (W.encode c.normalized)).2 := by
      have := congrArg String.toList htext
      simpa [withoutWhitespace, inked, linkPayload] using this
    have hne := Base64.bare_ne_nil (B := Base64.urlSafe) (sent_ne_nil h)
    have hpayload := payload_of_inked hinked (fun s hs => Base64.mem_bare hs) hne
    -- the text as the parser sees it, trimmed
    have hinked' : inked (text.toList.rdropWhile isWhitespace) =
        Base64.urlSafe.bare (W.sent (W.encode c.normalized)).2 := by
      rw [inked_rdropWhile, hinked]
    have hpayload' := payload_of_inked hinked' (fun s hs => Base64.mem_bare hs) hne
    have htrim := trim_link (W.sent (W.encode c.normalized)).1 hpayload.inked
    rw [String.ofList_toList] at htrim
    have hstart : startsWith (linkHead (W.sent (W.encode c.normalized)).1 ++
        ofList (text.toList.rdropWhile isWhitespace)) inboundPrefix = true := by
      rw [linkHead, String.append_assoc]
      exact startsWith_append _ _
    have hdata : withoutWhitespace (ofList (text.toList.rdropWhile isWhitespace)) =
        ofList (Base64.urlSafe.bare (W.sent (W.encode c.normalized)).2) := by
      rw [withoutWhitespace, toList_ofList]
      exact congrArg ofList hinked'
    simp [parse, htrim, hstart, extractData_link _ hpayload', hdata, inboundPayload_sent h,
      Location.normalized_normalized]
  exact ⟨hwrapped (linkPayload W c) (withoutWhitespace_linkPayload W c), hwrapped⟩

end RoundTrip

/-! ## A location that was shared -/

/-- Libraries as far as one location goes: its JSON text, and that text compressed. -/
def knownWire (c : Location ρ) (payload zipped : List UInt8) (compresses : Bool) :
    LocationWire ρ where
  encode _ := payload
  decode bytes := if bytes = payload then some c else none
  deflateOrNull bytes := if compresses ∧ bytes = payload then some zipped else none
  inflateOrNull bytes := if bytes = zipped then some payload else none

theorem faithful_knownWire {c : Location ρ} {payload zipped : List UInt8} (hpayload : payload ≠ [])
    (hzipped : zipped ≠ []) (compresses : Bool) :
    (knownWire c payload zipped compresses).Faithful c where
  decode_encode := if_pos rfl
  encode_ne_nil := hpayload
  inflate_deflate z h := by
    obtain ⟨-, rfl⟩ : _ ∧ zipped = z := by simpa [knownWire] using h
    exact if_pos rfl
  deflate_ne_nil z h := by
    obtain ⟨-, rfl⟩ : _ ∧ zipped = z := by simpa [knownWire] using h
    exact hzipped

/-- The compressed form is sent where there is one and it is the shorter one. -/
theorem sent_knownWire (c : Location ρ) (payload zipped : List UInt8) (compresses : Bool) :
    ((knownWire c payload zipped compresses).sent payload).1 =
      (compresses && decide (zipped.length < payload.length)) := by
  cases compresses with
  | false => simp [LocationWire.sent, knownWire]
  | true => by_cases h : zipped.length < payload.length <;> simp [LocationWire.sent, knownWire, h]

/-- A text with a line break after `n` characters, as a chat client wraps it. -/
def lineBreakAt (n : Nat) (s : String) : String :=
  ofList (s.toList.take n ++ '\n' :: s.toList.drop n)

theorem withoutWhitespace_lineBreakAt (n : Nat) {s : String} (h : withoutWhitespace s = s) :
    withoutWhitespace (lineBreakAt n s) = s := by
  have hbreak : isWhitespace '\n' = true := by decide
  conv_rhs => rw [← h]
  rw [withoutWhitespace, withoutWhitespace, lineBreakAt, toList_ofList, filter_append,
    filter_cons_of_neg (by simp [hbreak]), ← filter_append, take_append_drop]

/-- A chain over two rooms, cascaded and bonded, as the editor hands it over. -/
def sharedLocation : Location Unit where
  config :=
    { name := " DE | Frankfurt ", description := "fast", id := "room-1", key := "secret"
      bypassProvider := "jitsi", transport := "datachannel", engine := .chain
      proxy := some { server := "198.51.100.1", serverPort := 443, uuid := "0b1c2d3e" }
      proxy2 := some { server := "203.0.113.7", serverPort := 443, uuid := "0b1c2d3e" }
      core := .xray
      advanced := some { muxEnabled := true }
      routingProfileId := "work"
      fakeDns := some { blockRegex := ["ads"] }
      multiRoomEnabled := true
      extraRooms :=
        [{ provider := "jitsi", transport := "datachannel", room := "room-2", key := "secret" }]
      multiRoomBond := true
      bondPort := 7000 }
  rest := ()

/-- Its JSON text, in pieces: defaults are left out. -/
def sharedJson : List String :=
  ["\x7b\"name\":\"DE | Frankfurt\",", "\"description\":\"fast\",", "\"id\":\"room-1\",",
   "\"key\":\"secret\",", "\"bypass_provider\":\"jitsi\",", "\"transport\":\"datachannel\",",
   "\"engine\":\"chain\",", "\"proxy\":\x7b\"server\":\"198.51.100.1\",", "\"server_port\":443,",
   "\"uuid\":\"0b1c2d3e\"\x7d,", "\"proxy2\":\x7b\"server\":\"203.0.113.7\",",
   "\"server_port\":443,", "\"uuid\":\"0b1c2d3e\"\x7d,", "\"core\":\"xray\",",
   "\"advanced\":\x7b\"mux_enabled\":true\x7d,", "\"routing_profile_id\":\"work\",",
   "\"fake_dns\":\x7b\"block_regex\":[\"ads\"]\x7d,", "\"multi_room\":true,",
   "\"extra_rooms\":[\x7b\"provider\":\"jitsi\",", "\"transport\":\"datachannel\",",
   "\"room\":\"room-2\",", "\"key\":\"secret\"\x7d],", "\"multi_room_bond\":true,",
   "\"bond_port\":7000\x7d"]

@[irreducible] def sharedPayload : List UInt8 :=
  sharedJson.flatMap fun piece => piece.toList.map fun c => UInt8.ofNat c.toNat

/-- The same text as a zlib stream. -/
@[irreducible] def sharedZlib : List UInt8 :=
  [120, 218, 149, 145, 193, 78, 195, 48, 16, 68, 127, 165, 242, 185, 68, 78, 82, 84, 232, 25,
   248, 137, 170, 178, 28, 123, 83, 76, 146, 117, 180, 182, 75, 170, 210, 127, 103, 157, 20, 9,
   56, 193, 205, 59, 147, 121, 235, 140, 47, 2, 245, 0, 98, 39, 158, 158, 87, 31, 171, 23, 210,
   216, 181, 137, 162, 88, 11, 11, 193, 144, 27, 163, 243, 200, 118, 171, 67, 22, 157, 229, 51,
   121, 63, 220, 149, 60, 117, 112, 230, 49, 128, 33, 200, 102, 115, 30, 117, 8, 106, 36, 127,
   114, 22, 136, 173, 55, 23, 131, 99, 39, 50, 55, 140, 158, 185, 59, 97, 117, 212, 230, 85, 35,
   66, 207, 14, 224, 209, 97, 222, 207, 146, 67, 22, 56, 61, 49, 245, 194, 88, 58, 205, 144, 242,
   241, 161, 184, 47, 139, 82, 202, 34, 47, 93, 116, 181, 208, 54, 155, 122, 45, 82, 154, 175,
   37, 155, 210, 84, 182, 6, 113, 189, 81, 170, 31, 152, 74, 214, 5, 19, 202, 186, 216, 254, 149,
   98, 60, 229, 171, 77, 164, 207, 28, 209, 246, 164, 209, 128, 205, 212, 33, 77, 10, 80, 55,
   125, 30, 35, 37, 224, 175, 201, 167, 232, 240, 152, 255, 191, 117, 61, 168, 25, 247, 238, 169,
   227, 108, 171, 59, 80, 22, 67, 206, 54, 189, 55, 157, 34, 56, 194, 36, 118, 123, 198, 6, 113,
   224, 248, 144, 250, 232, 84, 238, 118, 33, 114, 55, 19, 247, 54, 43, 156, 219, 95, 196, 191,
   138, 93, 64, 203, 91, 85, 191, 223, 234, 122, 248, 190, 79, 53, 30, 237, 215, 210, 124, 190,
   213, 178, 149, 82, 94, 63, 1, 1, 36, 180, 95]

/-- The libraries on this location, on a platform that compresses and on one that does not. -/
def sharedWire : Bool → LocationWire Unit :=
  knownWire sharedLocation.normalized sharedPayload sharedZlib

theorem sharedZlib_shorter : 0 < sharedZlib.length ∧ sharedZlib.length < sharedPayload.length := by
  decide +kernel

theorem faithful_sharedWire (compresses : Bool) :
    (sharedWire compresses).Faithful sharedLocation.normalized := by
  refine faithful_knownWire (ne_nil_of_length_pos ?_) (ne_nil_of_length_pos ?_) compresses
  · exact sharedZlib_shorter.1.trans sharedZlib_shorter.2
  · exact sharedZlib_shorter.1

/-- The link of the location, as far as the platform decides its form. -/
theorem compose_sharedWire (compresses : Bool) : compose (sharedWire compresses) sharedLocation =
    linkHead compresses ++ linkPayload (sharedWire compresses) sharedLocation := by
  have hform := sent_knownWire sharedLocation.normalized sharedPayload sharedZlib compresses
  rw [decide_eq_true sharedZlib_shorter.2, Bool.and_true] at hform
  rw [compose]
  exact congrArg (linkHead · ++ linkPayload (sharedWire compresses) sharedLocation) hform

/-- Both forms of the link are read back, the compressed one also broken over two lines. -/
theorem shared_location_read_back :
    parse (sharedWire true) (compose (sharedWire true) sharedLocation) =
      some sharedLocation.normalized ∧
    parse (sharedWire true)
      (linkHead true ++ lineBreakAt 64 (linkPayload (sharedWire true) sharedLocation)) =
      some sharedLocation.normalized ∧
    parse (sharedWire false)
      (linkHead false ++ linkPayload (sharedWire false) sharedLocation) =
      some sharedLocation.normalized := by
  obtain ⟨hread, hbroken⟩ := parse_compose (faithful_sharedWire true)
  refine ⟨hread, ?_, ?_⟩
  · have hform := sent_knownWire sharedLocation.normalized sharedPayload sharedZlib true
    rw [decide_eq_true sharedZlib_shorter.2] at hform
    have hline := hbroken _
      (withoutWhitespace_lineBreakAt 64 (withoutWhitespace_linkPayload _ sharedLocation))
    exact (congrArg (fun form => parse (sharedWire true) (linkHead form ++ _)) hform).symm.trans
      hline
  · rw [← compose_sharedWire]
    exact (parse_compose (faithful_sharedWire false)).1

end OlcVpn.Share
