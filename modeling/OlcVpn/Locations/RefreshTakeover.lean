/-
  CAN A STORAGE ID MOVE TO ANOTHER SERVER?

  A refresh hands the id of an entry (its selection, its pings) to the answered server with the same
  signature.  That is right as far as the signature tells servers apart.  It does for locations as
  the importers write them, except on the WDTT and csqtt cores: their signature is that of an empty
  link, so every server of such a panel looks like every other.
-/
import OlcVpn.Locations.Endpoint
import OlcVpn.Locations.RefreshKeeps

namespace OlcVpn.Locations

open Kotlin List
open LocationConfig (hidesPeer isStorable)

section

variable (wirePeer : String → Option String)

/-- Whenever an answered server takes over an id, it is the server that had it. -/
def IdsStay (w : World) (b : StoredBundle) (onlyUrls : Option (List String)) : Prop :=
  ∀ group ∈ groupedByUrl b.bundle onlyUrls, ∀ answer, w.answer group.1 = some answer →
    ∀ q p, (q, some p) ∈ (reuse group.2 answer.locations).1 →
      SameServer wirePeer p.location q.location

/-- Every answer consists of locations as the importers write them. -/
def World.WellFormed (w : World) : Prop :=
  ∀ url answer, w.answer url = some answer →
    ∀ q ∈ answer.locations, q.location.WellFormed wirePeer

variable {wirePeer}

theorem idsStay_of_visible {w : World} (hw : w.WellFormed wirePeer) {b : StoredBundle}
    {onlyUrls : Option (List String)}
    (hwf : ∀ group ∈ groupedByUrl b.bundle onlyUrls, ∀ p ∈ group.2, p.location.WellFormed wirePeer)
    (hvisible : ∀ group ∈ groupedByUrl b.bundle onlyUrls, ∀ p ∈ group.2,
      p.location.hidesPeer = false) : IdsStay wirePeer w b onlyUrls := by
  intro group hgroup answer hanswer q p hpair
  have hreuse := reuse_spec group.2 answer.locations
  obtain ⟨hp, hsig⟩ := hreuse.held q p hpair
  have hq : q ∈ answer.locations := by
    rw [← hreuse.claimants]
    exact mem_map_of_mem hpair
  have hwfp := hwf group hgroup p hp
  have hwfq := hw group.1 answer hanswer q hq
  refine sameServer_of_parts hwfp hwfq ?_ (hvisible group hgroup p hp)
  rcases hsig with hnamed | hsig
  · exact signatureParts_eq_of_named hwfp hwfq hnamed
  · exact signatureParts_eq hwfp hwfq hsig

/-! ## A hidden peer can be exchanged -/

/-- The length of a hidden peer's address. -/
def Endpoint.peerLength : Endpoint → Nat
  | .wdtt peer => peer.toList.length
  | .csqtt peer => peer.toList.length
  | _ => 0

variable (v : VkTurnConfig)

/-- The section with a long peer instead of its own. -/
def VkTurnConfig.withPeer (n : Nat) : VkTurnConfig :=
  { v with wdttPeer := longKey n, csqttPeer := longKey n }

theorem not_mem_longKey {c : Char} (hc : c ≠ 'k') (n : Nat) : c ∉ (longKey n).toList := by
  rw [longKey, String.toList_ofList]
  exact fun h => hc (eq_of_mem_replicate h)

theorem withPeer_wdtt (n : Nat) :
    (v.withPeer n).wdttPeerAddr = longKey n ++ ":" ++ toString (portOr v.wdttPort 56000) := by
  have hcolon : (longKey n).toList.contains ':' = false := by
    simpa using not_mem_longKey (c := ':') (by decide) n
  simp only [VkTurnConfig.wdttPeerAddr, VkTurnConfig.withPeer, (isSlug_longKey n).trim_eq,
    (isSlug_longKey n).nonempty, hcolon, Bool.and_false, Bool.false_eq_true, if_false]

theorem withPeer_csqtt (n : Nat) :
    (v.withPeer n).csqttPeerAddr = longKey n ++ ":" ++ toString (portOr v.csqttPort 46000) := by
  have hcolon : ':' ∉ (longKey n).toList := not_mem_longKey (by decide) n
  have hcount : (longKey n).toList.count ':' = 0 := count_eq_zero.mpr hcolon
  have hstart : startsWith (longKey n) "[" = false := by
    simp [startsWith, longKey, replicate_succ, List.isPrefixOf]
  have hfirst : removeFirst (longKey n) '[' = longKey n := by
    simp [removeFirst, longKey, replicate_succ]
  have hlast : removeLast (longKey n) ']' = longKey n := by
    rw [removeLast, if_neg]
    intro h
    exact absurd (mem_of_getLast? h) (not_mem_longKey (by decide) n)
  have hbare : (longKey n).toList.contains ':' = false := by simpa using hcolon
  simp only [VkTurnConfig.csqttPeerAddr, VkTurnConfig.withPeer, (isSlug_longKey n).trim_eq,
    (isSlug_longKey n).nonempty, hstart, hcount, hfirst, hlast, hbare, Bool.false_eq_true, if_false,
    zero_ne_one, decide_false, Bool.false_and]

/-- The location with a long peer instead of its own. -/
def LocationConfig.withPeer (c : LocationConfig) (n : Nat) : LocationConfig :=
  { c with vkturn := c.vkturn.map (VkTurnConfig.withPeer · n) }

section Hidden

variable {c : LocationConfig} (hc : c.WellFormed wirePeer) (hhidden : c.hidesPeer = true) (n : Nat)
include hc hhidden

/-- The section that hides the peer. -/
theorem hidden_section : ∃ v, c.vkturn = some v ∧ (v.usesWdtt || v.usesCsqtt) = true ∧
    c.engine = .vkTurn := by
  cases hv : c.vkturn with
  | none => simp [hidesPeer, hv] at hhidden
  | some v =>
    exact ⟨v, rfl, by simpa [hidesPeer, hv] using hhidden,
      hc.ownVkTurn.mp (by simp [hv])⟩

omit hc hhidden in
/-- The peer is no part of the signature. -/
theorem withPeer_parts : signatureParts (c.withPeer n) = signatureParts c := by
  have hsig : ∀ v : VkTurnConfig, (v.withPeer n).signature = v.signature := fun _ => rfl
  have hvk : ((c.vkturn.map (VkTurnConfig.withPeer · n)).map VkTurnConfig.signature).getD "" =
      (c.vkturn.map VkTurnConfig.signature).getD "" := by
    cases c.vkturn <;> simp [hsig]
  simp only [signatureParts, LocationConfig.normalized, LocationConfig.withPeer, hvk]

theorem withPeer_wellFormed : (c.withPeer n).WellFormed wirePeer := by
  obtain ⟨v, hv, hcore, hengine⟩ := hidden_section hc hhidden
  have hvkturn : (c.withPeer n).vkturn = some (v.withPeer n) := by
    simp [LocationConfig.withPeer, hv]
  have hnorm : (c.withPeer n).normalized = c.withPeer n := by
    have heq : (c.withPeer n).normalized = c.normalized.withPeer n := by
      simp only [LocationConfig.normalized, LocationConfig.withPeer]
    rw [heq, hc.normalized]
  have hstorable : (c.withPeer n).isStorable = true := by
    have hport : validPort v.listenPort = true := by
      have hold := hc.storable
      simp only [isStorable, hengine, hv, Option.any_some, VkTurnConfig.isStorable,
        Bool.and_eq_true] at hold
      exact hold.1.1
    have hengine' : (c.withPeer n).engine = .vkTurn := hengine
    have huses : (v.withPeer n).usesWdtt = v.usesWdtt ∧ (v.withPeer n).usesCsqtt = v.usesCsqtt :=
      ⟨rfl, rfl⟩
    have hsection : (v.withPeer n).isStorable = true := by
      rw [VkTurnConfig.isStorable, huses.1, huses.2]
      rcases Bool.or_eq_true_iff.mp hcore with h | h
      · simp [VkTurnConfig.withPeer, hport, h, (isSlug_longKey n).isNotBlank]
      · simp [VkTurnConfig.withPeer, hport, h, (isSlug_longKey n).isNotBlank]
    have hexit : (c.withPeer n).vkTurnExitPresent = true := by
      rw [LocationConfig.vkTurnExitPresent, hvkturn, Option.any_some, Option.any_some,
        huses.1, huses.2]
      rcases Bool.or_eq_true_iff.mp hcore with h | h <;> simp [h]
    simp [isStorable, hengine', hvkturn, hsection, hexit]
  exact
    { normalized := hnorm
      storable := hstorable
      ownVkTurn := by simp [LocationConfig.withPeer, hengine, hv]
      ownMasterDns := hc.ownMasterDns
      ownOpenFlux := hc.ownOpenFlux
      ownSnolc := hc.ownSnolc
      noProxy := hc.noProxy
      noRoom := hc.noRoom
      bars := by rw [withPeer_parts]; exact hc.bars
      proxyAt := hc.proxyAt
      domainsAt := hc.domainsAt
      vkTurn := by
        intro u hu
        obtain rfl : v.withPeer n = u := by simpa [hvkturn] using hu
        exact ⟨(hc.vkTurn v hv).outbound, (hc.vkTurn v hv).link⟩ }

/-- Its endpoint has a peer longer than `n`. -/
theorem withPeer_length : ∃ endpoint, (c.withPeer n).endpoint wirePeer = some endpoint ∧
    n < endpoint.peerLength := by
  obtain ⟨v, hv, hcore, hengine⟩ := hidden_section hc hhidden
  have hlong : ∀ port : Int, n < (longKey n ++ ":" ++ toString port).toList.length := by
    intro port
    simp only [String.toList_append, length_append, longKey, String.toList_ofList, length_replicate]
    omega
  refine ⟨(v.withPeer n).endpoint wirePeer, ?_, ?_⟩
  · simp [LocationConfig.endpoint, LocationConfig.withPeer, hengine, hv]
  · have huses : (v.withPeer n).usesWdtt = v.usesWdtt ∧ (v.withPeer n).usesCsqtt = v.usesCsqtt :=
      ⟨rfl, rfl⟩
    rw [VkTurnConfig.endpoint, huses.1, huses.2]
    cases hwdtt : v.usesWdtt with
    | true =>
      rw [if_pos rfl, withPeer_wdtt]
      exact hlong _
    | false =>
      have hcsqtt : v.usesCsqtt = true := by simpa [hwdtt] using hcore
      rw [if_neg (by simp), if_pos hcsqtt, withPeer_csqtt]
      exact hlong _

end Hidden

/-- A stored entry with a location that keeps its form in the storage. -/
theorem LocationEntry.Stored.location_stored {e : LocationEntry} (h : e.Stored) :
    e.location.stored = e.location := by
  rw [← location_normalized, h.fixed]

/-- There is only one answer to meet. -/
theorem oneAnswer_answer {url url' : String} {answer answer' : ResolvedImport}
    (h : (oneAnswer url answer).answer url' = some answer') : answer' = answer := by
  simp only [World.answer, oneAnswer, Option.filter_eq_some_iff] at h
  split_ifs at h
  · exact (Option.some.inj h.1).symm
  · simp at h

/-- A server that is alone in its answer takes over an id, if any entry has its named signature. -/
theorem reuse_single {previous : List LocationEntry} {p q : LocationEntry} (hp : p ∈ previous)
    (hsig : namedSubscriptionSignature p.location = namedSubscriptionSignature q.location) :
    ∃ p', (q, some p') ∈ (reuse previous [q]).1 := by
  have hmem : p ∈ pool namedSubscriptionSignature previous q := by
    rw [pool_eq, mem_filter]
    exact ⟨hp, by simpa using hsig⟩
  cases hclaim : Claim.claim LocationEntry.storageId []
      (pool namedSubscriptionSignature previous q) with
  | none =>
    have hnone := find?_eq_none.mp hclaim p hmem
    simp at hnone
  | some p' =>
    refine ⟨p', ?_⟩
    simp [reuse, Claim.pass, hclaim]

/-- An entry that hides its peer can lose its id to a server with another peer. -/
theorem moved_of_hidden {b : StoredBundle} {onlyUrls : Option (List String)}
    (hwf : ∀ group ∈ groupedByUrl b.bundle onlyUrls, ∀ p ∈ group.2, p.location.WellFormed wirePeer)
    {group : String × List LocationEntry} (hgroup : group ∈ groupedByUrl b.bundle onlyUrls)
    {p : LocationEntry} (hp : p ∈ group.2) (hhidden : p.location.hidesPeer = true) :
    ∃ w : World, w.WellFormed wirePeer ∧ ¬IdsStay wirePeer w b onlyUrls := by
  have hstored := (urlGroup_of_mem b onlyUrls hgroup).stored p hp
  have hc := hwf group hgroup p hp
  -- a peer longer than any of the group
  obtain ⟨n, hn⟩ := Finset.exists_le (group.2.map fun e =>
    ((e.location.endpoint wirePeer).map Endpoint.peerLength).getD 0).toFinset
  replace hn : ∀ e ∈ group.2,
      ((e.location.endpoint wirePeer).map Endpoint.peerLength).getD 0 ≤ n :=
    fun e he => hn _ (mem_toFinset.mpr (mem_map.mpr ⟨e, he, rfl⟩))
  set d := p.location.withPeer n with hd
  have hdwf : d.WellFormed wirePeer := withPeer_wellFormed hc hhidden n
  set q := LocationEntry.ofConfig "probe" d none none with hq
  have hlocation : q.location = d := by
    rw [hq, LocationEntry.ofConfig_location hdwf.normalized]
    have hkeep : d.stored = p.location.stored.withPeer n := rfl
    rw [hkeep, hstored.location_stored]
  set answer : ResolvedImport :=
    { locations := [q]
      storable := by
        intro e he
        rw [mem_singleton.mp he, hlocation]
        exact hdwf.storable } with hanswer
  have hone : (oneAnswer group.1 answer).answer group.1 = some answer := by
    simp [World.answer, oneAnswer, hanswer, Option.filter_some]
  refine ⟨oneAnswer group.1 answer, ?_, ?_⟩
  · intro url answer' h e he
    rw [oneAnswer_answer h] at he
    rw [mem_singleton.mp he, hlocation]
    exact hdwf
  · intro hstay
    have hsig : namedSubscriptionSignature p.location = namedSubscriptionSignature q.location := by
      have hname : d.name = p.location.name := rfl
      have hparts : subscriptionSignature d = subscriptionSignature p.location := by
        rw [subscriptionSignature, hd, withPeer_parts, ← subscriptionSignature]
      rw [hlocation, namedSubscriptionSignature, namedSubscriptionSignature, hparts, hname]
    obtain ⟨p', hpair⟩ := reuse_single hp hsig
    have hp' : p' ∈ group.2 := ((reuse_spec group.2 [q]).held q p' hpair).1
    obtain ⟨-, hend⟩ := hstay group hgroup answer hone q p' hpair
    obtain ⟨endpoint, hendpoint, hlong⟩ := withPeer_length hc hhidden n
    have hshort := hn p' hp'
    rw [hend, hlocation, hd, hendpoint] at hshort
    exact absurd hshort (Nat.not_le.mpr hlong)

/-- For a bundle whose target entries are as the importers write them: no refresh with such answers
    hands an id to a different server, if and only if none of those entries hides its peer. -/
theorem idsStay_iff (b : StoredBundle) (onlyUrls : Option (List String))
    (hwf : ∀ group ∈ groupedByUrl b.bundle onlyUrls, ∀ p ∈ group.2,
      p.location.WellFormed wirePeer) :
    (∀ w : World, w.WellFormed wirePeer → IdsStay wirePeer w b onlyUrls) ↔
      ∀ group ∈ groupedByUrl b.bundle onlyUrls, ∀ p ∈ group.2, p.location.hidesPeer = false := by
  constructor
  · intro h group hgroup p hp
    by_contra hhidden
    obtain ⟨w, hw, hmoved⟩ := moved_of_hidden hwf hgroup hp (by simpa using hhidden)
    exact hmoved (h w hw)
  · exact fun hvisible w hw => idsStay_of_visible hw hwf hvisible

end

/-- An olcRTC entry without sections, the texts before its name free of bars. -/
def LocationEntry.plainRoom (e : LocationEntry) : Bool :=
  e.location.engine = .stealth && e.location.isStorable && e.location.proxy.isNone &&
    e.location.vkturn.isNone && e.location.masterDns.isNone && e.location.openFlux.isNone &&
    e.location.snolc.isNone &&
    (signatureParts e.location).all fun part => !part.toList.contains '|'

theorem LocationEntry.wellFormed_of_plainRoom {wirePeer : String → Option String}
    {e : LocationEntry} (h : e.plainRoom = true) : e.location.WellFormed wirePeer := by
  simp only [plainRoom, Bool.and_eq_true, decide_eq_true_eq, Option.isNone_iff_eq_none,
    all_eq_true, Bool.not_eq_true', ← Bool.not_eq_true, contains_iff_mem] at h
  obtain ⟨⟨⟨⟨⟨⟨⟨hengine, hstorable⟩, hproxy⟩, hvk⟩, hdns⟩, hflux⟩, hsnolc⟩, hbars⟩ := h
  exact
    { normalized := e.location_isNormalized
      storable := hstorable
      ownVkTurn := by simp [hvk, hengine]
      ownMasterDns := by simp [hdns, hengine]
      ownOpenFlux := by simp [hflux, hengine]
      ownSnolc := by simp [hsnolc, hengine]
      noProxy := fun _ => hproxy
      noRoom := by simp [hengine]
      bars := hbars
      proxyAt := by simp [hproxy]
      domainsAt := by simp [hdns]
      vkTurn := by simp [hvk] }

/-- The two panels of olcRTC rooms: no id moves. -/
theorem two_panels_ids_stay :
    IdsStay (fun _ => none) (oneAnswer "https://a.example/sub" grownPanel) twoPanels none := by
  have hplain : (groupedByUrl twoPanels.bundle none).all
      (fun group => group.2.all LocationEntry.plainRoom) = true := by decide +kernel
  have hvisible : (groupedByUrl twoPanels.bundle none).all
      (fun group => group.2.all fun p => !p.location.hidesPeer) = true := by decide
  have hanswered : grownPanel.locations.all LocationEntry.plainRoom = true := by decide +kernel
  simp only [all_eq_true] at hplain hvisible hanswered
  refine (idsStay_iff twoPanels none fun group hgroup p hp =>
    LocationEntry.wellFormed_of_plainRoom (hplain group hgroup p hp)).mpr ?_ _ ?_
  · intro group hgroup p hp
    simpa using hvisible group hgroup p hp
  · intro url answer h q hq
    rw [oneAnswer_answer h] at hq
    exact LocationEntry.wellFormed_of_plainRoom (hanswered q hq)

/-- A panel with one WDTT server. -/
def wdttPanel : StoredBundle :=
  LocationBundle.save
    { locations :=
        [{ storageId := "imported_qwdtt_198_51_100_1", name := "qWDTT 198.51.100.1"
           subscriptionUrl := some "https://a.example/sub", engine := some .vkTurn
           vkturn := some { core := "wdtt", wdttPeer := "198.51.100.1" } }] }

/-- The panel has replaced it by another one. -/
def wdttReplaced : ResolvedImport where
  locations :=
    [{ storageId := "x", name := "qWDTT 203.0.113.7", engine := some .vkTurn
       vkturn := some { core := "wdtt", wdttPeer := "203.0.113.7" } }]
  storable := by decide

/-- The id of the old server moves to the new one. -/
theorem wdtt_id_moves :
    ¬IdsStay (fun _ => none) (oneAnswer "https://a.example/sub" wdttReplaced) wdttPanel none := by
  intro h
  have hmoved : (groupedByUrl wdttPanel.bundle none).any (fun group =>
      decide (group.1 = "https://a.example/sub") &&
      (reuse group.2 wdttReplaced.locations).1.any fun pair =>
        pair.2.any fun p => decide (p.location.endpoint (fun _ => none) ≠
          pair.1.location.endpoint fun _ => none)) = true := by
    decide +kernel
  simp only [any_eq_true, Bool.and_eq_true, decide_eq_true_eq] at hmoved
  obtain ⟨group, hgroup, hurl, ⟨q, held⟩, hpair, hdiffer⟩ := hmoved
  cases held with
  | none => simp at hdiffer
  | some p =>
    have hanswer : (oneAnswer "https://a.example/sub" wdttReplaced).answer group.1 =
        some wdttReplaced := by
      rw [hurl]
      rfl
    have hsame := (h group hgroup wdttReplaced hanswer q p hpair).2
    simp [hsame] at hdiffer

end OlcVpn.Locations
