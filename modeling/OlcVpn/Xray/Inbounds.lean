/-
  WHO CAN USE THE LOCAL PROXY: the inbounds of every configuration the app starts the core with.

  The app's own inbound asks for the user name and password it is given.  Two more kinds of inbound
  reach the core: the RELAY of a second server behind an xhttp main one, and, from a configuration
  of the user's, every inbound that is not SOCKS.

  The core is modelled as far as the question needs it.  A SOCKS inbound ("socks" and "mixed" are
  one protocol) speaks two dialects on its port, SOCKS and plain HTTP, and the two do not refuse
  alike: with "auth": "password" and no account at all, SOCKS refuses everyone and HTTP nobody.
  Accounts are a map from user names, so of two accounts of one name the last one counts.  All other
  protocols stay opaque.

  THE SPECIFICATION (`Guarded`): an inbound that opens a port lets in exactly the clients that give
  the configured user name and password.

  `inbounds_guarded_iff` says for both entry points which inputs meet it: no relay, and every
  inbound that is carried over is guarded as it stands.
-/
import OlcVpn.Xray.Closed
import OlcVpn.Xray.RawRouting

namespace OlcVpn.Xray

open Kotlin Generate List
open Option (bind_eq_some_iff map_eq_some_iff some)

/-! ## The core's side of an inbound -/

/-- What a client of an inbound speaks. -/
inductive Dialect where
  | socks | http
  deriving DecidableEq, Repr

/-- A user name and a password, if the client gives them. -/
abbrev Credentials := Option (String × String)

/-- What is left open about the core. -/
structure InboundCore where
  /-- How it reads a configuration as a text. -/
  parse : String → Option JsonObject
  /-- A `listen` that names a socket file. -/
  unixSocket : String → Bool
  unixSocket_loopback : unixSocket "127.0.0.1" = false
  /-- Whom an inbound of another protocol lets in. -/
  others : JsonObject → Credentials → Bool

theorem inboundProtocol_socks {inbound : JsonObject} (h : goString inbound "protocol" = "socks") :
    inboundProtocol inbound = "socks" := by
  rw [inboundProtocol, h]
  decide

/-- The accounts of an inbound; `accounts` replaces `users`. -/
def accountsOf (settings : JsonObject) : List (String × String) :=
  let name := match settings.lookup "accounts" with
    | none | some .null => "users"
    | some _ => "accounts"
  (objectsOf settings name).map fun account => (goString account "user", goString account "pass")

/-- `HasAccount`: the accounts are put into a map one after another. -/
def hasAccount (accounts : List (String × String)) (user pass : String) : Bool :=
  accounts.reverse.lookup user = some pass

namespace InboundCore

variable (core : InboundCore)

/-- An inbound opens a port, unless it is a network device or a socket file. -/
def listens (inbound : JsonObject) : Bool :=
  inboundProtocol inbound ≠ "tun" && !core.unixSocket (goString inbound "listen")

/-- Whom an inbound lets in. -/
def admits (inbound : JsonObject) (dialect : Dialect) (given : Credentials) : Bool :=
  let settings := (objectAt inbound "settings").getD []
  let accounts := accountsOf settings
  let known := given.any fun c => hasAccount accounts c.1 c.2
  if inboundProtocol inbound ∈ ["socks", "mixed"] then
    -- without a password as the method there is no check in either dialect
    if goString settings "auth" = "password" then
      match dialect with
      | .socks => known
      | .http => accounts.isEmpty || known
    else true
  else if inboundProtocol inbound = "http" then accounts.isEmpty || known
  else core.others inbound given

/-- THE SPECIFICATION: an inbound that opens a port asks for exactly these credentials. -/
def Guarded (user pass : String) (inbound : JsonObject) : Prop :=
  core.listens inbound = true →
    ∀ dialect given, core.admits inbound dialect given = true ↔ given = some (user, pass)

/-! ## The two inbounds the app writes -/

theorem hasAccount_single (user pass u p : String) :
    hasAccount [(user, pass)] u p = true ↔ (u, p) = (user, pass) := by
  rw [hasAccount, reverse_singleton, lookup_cons, lookup_nil]
  by_cases h : u = user
  · subst h
    simp [eq_comm]
  · have hne : (u == user) = false := by simpa using h
    simp [hne, h]

/-- With one account, nobody else gets in. -/
theorem any_hasAccount (user pass : String) (given : Credentials) :
    (given.any fun c => hasAccount [(user, pass)] c.1 c.2) = true ↔ given = some (user, pass) := by
  cases given with
  | none => simp
  | some c => rw [Option.any_some, hasAccount_single, some.injEq]

theorem accountsOf_socksSettings {username : String} (password : String)
    (h : isNotBlank username = true) :
    accountsOf (socksSettings username password) = [(username, password)] := by
  rw [socksSettings, if_pos h]
  rfl

/-- The app's own inbound, whatever follows its settings. -/
theorem guarded_socks {username : String} (password : String) (h : isNotBlank username = true)
    {inbound : JsonObject} (hname : goString inbound "protocol" = "socks")
    (hsettings : objectAt inbound "settings" = some (socksSettings username password)) :
    core.Guarded username password inbound := by
  intro _ dialect given
  have hprotocol := inboundProtocol_socks hname
  have hauth : goString (socksSettings username password) "auth" = "password" := by
    rw [socksSettings, if_pos h]
    rfl
  have hadmits : core.admits inbound dialect given =
      given.any fun c => hasAccount [(username, password)] c.1 c.2 := by
    simp only [admits, hprotocol, hsettings, Option.getD_some, hauth, accountsOf_socksSettings _ h]
    cases dialect <;> simp
  rw [hadmits, any_hasAccount]

/-- An HTTP inbound of the configuration itself, with one account. -/
theorem guarded_http {username password : String} {inbound : JsonObject}
    (hprotocol : inboundProtocol inbound = "http")
    (haccounts : accountsOf ((objectAt inbound "settings").getD []) = [(username, password)]) :
    core.Guarded username password inbound := by
  intro _ dialect given
  have hadmits : core.admits inbound dialect given =
      given.any fun c => hasAccount [(username, password)] c.1 c.2 := by
    simp [admits, hprotocol, haccounts]
  rw [hadmits, any_hasAccount]

/-- The relay lets everyone in. -/
theorem not_guarded_loop (user pass : String) (port : Int) :
    ¬ core.Guarded user pass (cascadeLoopInbound port) := by
  intro hguarded
  have hprotocol : inboundProtocol (cascadeLoopInbound port) = "socks" := inboundProtocol_socks rfl
  have hlistens : core.listens (cascadeLoopInbound port) = true := by
    have hlisten : goString (cascadeLoopInbound port) "listen" = "127.0.0.1" := rfl
    simp [listens, hprotocol, hlisten, core.unixSocket_loopback]
  have hopen : core.admits (cascadeLoopInbound port) .socks none = true := by
    have hauth : goString ((objectAt (cascadeLoopInbound port) "settings").getD []) "auth" =
        "noauth" := rfl
    simp [admits, hprotocol, hauth]
  cases (hguarded hlistens .socks none).mp hopen

end InboundCore

/-! ## The two entry points -/

/-- A call that generates a configuration. -/
inductive Call where
  | build (a : BuildArgs)
  | prepareRaw (a : RawArgs)

namespace Call

def username : Call → String
  | build a => a.socksUsername
  | prepareRaw a => a.socksUsername

def password : Call → String
  | build a => a.socksPassword
  | prepareRaw a => a.socksPassword

/-- The inbounds of a configuration as the core finds them. -/
def inboundsOf (core : InboundCore) : Prepared → List JsonObject
  | .verbatim text => ((core.parse text).map fun root => objectsOf root "inbounds").getD []
  | .config out => objectsOf out "inbounds"

/-- The inbounds of the generated configuration; `none` where the call throws. -/
def inbounds (rt : Runtime) (core : InboundCore) : Call → Option (List JsonObject)
  | build a => (Xray.build rt a).map fun out => objectsOf out "inbounds"
  | prepareRaw a => (Xray.prepareRaw rt a).map (inboundsOf core)

end Call

/-- What the input of a call has to meet. -/
def Call.Sealed (rt : Runtime) (core : InboundCore) : Call → Prop
  | build a => a.second = none ∨ a.profile.network ≠ "xhttp"
  | prepareRaw a =>
    match (rt.parse a.rawConfigJson).bind jsonObjectOrNull with
    -- no JSON object to the app: the core gets the text as it is
    | none => ∀ inbound ∈ inboundsOf core (.verbatim a.rawConfigJson),
        core.Guarded a.socksUsername a.socksPassword inbound
    | some root => ¬ RelayNeeded a root ∧
        ∀ inbound ∈ objectsOf root "inbounds", contentAt inbound "protocol" ≠ some (some "socks") →
          core.Guarded a.socksUsername a.socksPassword inbound

/-! ## The theorem -/

/-- EVERY INBOUND OF A GENERATED CONFIGURATION IS GUARDED exactly if the call needs no relay and
    carries no other inbound over. -/
theorem inbounds_guarded_iff {rt : Runtime} (core : InboundCore) {call : Call}
    (hname : isNotBlank call.username = true) {inbounds : List JsonObject}
    (h : call.inbounds rt core = some inbounds) :
    (∀ inbound ∈ inbounds, core.Guarded call.username call.password inbound) ↔
      call.Sealed rt core := by
  cases call with
  | build a =>
    obtain ⟨out, hout, rfl⟩ := map_eq_some_iff.mp h
    obtain ⟨wgBase, -, rfl⟩ := map_eq_some_iff.mp hout
    rw [objectsOf_inbounds, Xray.inbounds, Call.Sealed]
    cases hloop : a.cascadeLoopActive with
    | false =>
      have hsealed : a.second = none ∨ a.profile.network ≠ "xhttp" := by
        simpa [BuildArgs.cascadeLoopActive, or_iff_not_imp_left, Option.isSome_iff_ne_none]
          using hloop
      refine ⟨fun _ => hsealed, fun _ inbound hmem => ?_⟩
      rw [if_neg Bool.false_ne_true, append_nil, mem_singleton] at hmem
      subst hmem
      exact core.guarded_socks _ hname rfl rfl
    | true =>
      have hsealed : ¬ (a.second = none ∨ a.profile.network ≠ "xhttp") := by
        simpa [BuildArgs.cascadeLoopActive, Option.isSome_iff_ne_none] using hloop
      have hopen : ¬ core.Guarded a.socksUsername a.socksPassword
          (cascadeLoopInbound a.cascadeLoopPort) := core.not_guarded_loop _ _ _
      simp [hsealed, Call.username, Call.password, hopen]
  | prepareRaw a =>
    obtain ⟨prepared, hprepared, rfl⟩ := map_eq_some_iff.mp h
    rw [Call.Sealed]
    cases hroot : (rt.parse a.rawConfigJson).bind jsonObjectOrNull with
    | none =>
      rw [Xray.prepareRaw, hroot] at hprepared
      obtain rfl := (some.inj hprepared).symm
      exact Iff.rfl
    | some root =>
      rw [Xray.prepareRaw, hroot] at hprepared
      obtain ⟨out, hout, rfl⟩ := map_eq_some_iff.mp hprepared
      obtain ⟨parts, hparts, rfl⟩ := map_eq_some_iff.mp hout
      have hin : Call.inboundsOf core (.config (parts.config root)) = parts.inbounds :=
        objectsOf_inbounds_config parts root
      rw [hin]
      obtain ⟨sniffing, relay, hlist, hrelay⟩ := prepared_inbounds hparts
      have hcarried : ∀ inbound, inbound ∈ carried root ↔ inbound ∈ objectsOf root "inbounds" ∧
          contentAt inbound "protocol" ≠ some (some "socks") := by
        simp [carried]
      have hsocks : core.Guarded (Call.prepareRaw a).username (Call.prepareRaw a).password
          (rawSocksInbound a sniffing) := core.guarded_socks _ hname rfl rfl
      rw [hlist, forall_mem_cons, and_iff_right hsocks, forall_mem_append]
      simp only [hcarried, and_imp]
      obtain ⟨hneeded, rfl, -⟩ | ⟨hnot, rfl⟩ := hrelay
      · simp [hneeded, Call.username, Call.password, core.not_guarded_loop]
      · simp [hnot, Call.username, Call.password]

/-- A core that lets everyone into what is no proxy. -/
def bareCore : InboundCore where
  parse _ := none
  unixSocket listen := startsWith listen "/"
  unixSocket_loopback := by decide
  others _ _ := true

def vlessServer (network : String) : ServerProfile :=
  { type := "vless", server := "a.example", serverPort := 443, uuid := "u", network := network }

/-- Credentials for an xhttp server, and maybe a second one behind it. -/
def guardedCall (second : Option ServerProfile) : Call :=
  .build { profile := vlessServer "xhttp", listenPort := 10808, socksUsername := "user"
           socksPassword := "secret", secondProfile := second }

def noRuntime : Runtime := ⟨fun _ => none, fun _ => none, []⟩

/-- The inbounds of a configuration: one open, one with the app's own account, one device. -/
def sharedInbounds : List JsonObject :=
  [[("protocol", .str "socks"), ("port", .literal false "1080"),
     ("settings", .object [("auth", .str "noauth")])],
   [("protocol", .str "http"), ("port", .literal false "8080"), ("settings", .object
     [("accounts", .array [.object [("user", .str "user"), ("pass", .str "secret")]])])],
   [("protocol", .str "tun"), ("tag", .str "device")]]

def sharedConfig : JsonObject :=
  [("inbounds", .array (sharedInbounds.map .object)),
   ("outbounds", .array [.object [("protocol", .str "vless"), ("tag", .str "proxy"),
     ("streamSettings", .object [("network", .str "ws")])]])]

@[irreducible] def sharedText : String :=
  "\x7b\"inbounds\":[" ++
    "\x7b\"protocol\":\"socks\",\"port\":1080,\"settings\":\x7b\"auth\":\"noauth\"\x7d\x7d," ++
    "\x7b\"protocol\":\"http\",\"port\":8080,\"settings\":\x7b\"accounts\":" ++
      "[\x7b\"user\":\"user\",\"pass\":\"secret\"\x7d]\x7d\x7d," ++
    "\x7b\"protocol\":\"tun\",\"tag\":\"device\"\x7d]," ++
  "\"outbounds\":[\x7b\"protocol\":\"vless\",\"tag\":\"proxy\"," ++
    "\"streamSettings\":\x7b\"network\":\"ws\"\x7d\x7d]\x7d"

def sharedRuntime : Runtime :=
  { noRuntime with parse := fun text =>
      if text = sharedText then some (.object sharedConfig) else none }

/-- A second server behind it; the main one is no xhttp server, so there is no relay. -/
def sharedCall : Call :=
  .prepareRaw { rawConfigJson := sharedText, listenPort := 10808, socksUsername := "user"
                socksPassword := "secret", secondProfile := some (vlessServer "tcp") }

theorem sharedText_parsed :
    (sharedRuntime.parse sharedText).bind jsonObjectOrNull = some sharedConfig := by
  simp [sharedRuntime, jsonObjectOrNull]

/-- The open inbound is replaced, and the two that are carried over are guarded. -/
theorem sharedCall_sealed : sharedCall.Sealed sharedRuntime bareCore := by
  rw [sharedCall, Call.Sealed, sharedText_parsed]
  constructor
  · rintro ⟨-, main, tag, hmain, -, hxhttp⟩
    obtain rfl := some.inj (some.inj hmain)
    exact absurd hxhttp (by decide)
  · intro inbound hmem hprotocol
    have hcases : inbound ∈ sharedInbounds := hmem
    simp only [sharedInbounds, mem_cons, not_mem_nil, or_false] at hcases
    obtain rfl | rfl | rfl := hcases
    · exact absurd rfl hprotocol
    · exact bareCore.guarded_http (by decide) rfl
    · exact fun hlistens => absurd hlistens (by decide)

theorem sharedCall_guarded :
    ∃ inbounds, sharedCall.inbounds sharedRuntime bareCore = some inbounds ∧
    inbounds.length = 3 ∧ ∀ inbound ∈ inbounds, bareCore.Guarded "user" "secret" inbound := by
  have hcall : ∃ inbounds, sharedCall.inbounds sharedRuntime bareCore = some inbounds ∧
      inbounds.length = 3 := by
    rw [sharedCall, Call.inbounds, Xray.prepareRaw, sharedText_parsed]
    exact ⟨_, rfl, rfl⟩
  obtain ⟨inbounds, h, hlength⟩ := hcall
  have hname : isNotBlank sharedCall.username = true := by decide
  exact ⟨inbounds, h, hlength,
    (inbounds_guarded_iff bareCore hname h).mpr sharedCall_sealed⟩

/-- Behind an xhttp server the relay takes anyone. -/
theorem relay_takes_anyone : ∃ inbounds,
    (guardedCall (some (vlessServer "tcp"))).inbounds noRuntime bareCore = some inbounds ∧
    ∃ inbound ∈ inbounds, bareCore.listens inbound = true ∧
      bareCore.admits inbound .socks none = true := by
  refine ⟨_, rfl, cascadeLoopInbound 10809, ?_, ?_, ?_⟩ <;> decide

end OlcVpn.Xray
