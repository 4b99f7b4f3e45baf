/-
  The SIGNATURE of a subscription server: what tells it from the other servers of its panel.

  A refresh recognises a server it already has by comparing signatures: nine texts, five of them
  taken from the sections of the engines, joined by `|`.  A section that is absent counts as the
  empty text.
-/
import OlcVpn.Locations.Config

namespace OlcVpn.Locations

open Kotlin

def ProxyProfile.signature (p : ProxyProfile) : String :=
  p.type ++ "@" ++ p.server ++ ":" ++ toString p.serverPort

/-- The link without its `$comment`, which is the display name. -/
def VkTurnConfig.signature (v : VkTurnConfig) : String :=
  v.outbound ++ "@" ++ ifBlank (substringBefore v.uri '$') v.outboundProxyLink

def MasterDnsConfig.signature (d : MasterDnsConfig) : String :=
  d.domains ++ "@" ++ d.resolvers

def OpenFluxConfig.signature (o : OpenFluxConfig) : String :=
  o.transport ++ "@" ++ if o.usesMax then o.maxUid else o.docUrl

def SnolcConfig.signature (s : SnolcConfig) : String :=
  "snolc@" ++ s.host ++ ":" ++ toString s.port

/-- The texts a signature is made of. -/
def signatureParts (location : LocationConfig) : List String :=
  let normalized := location.normalized
  [normalized.bypassProvider, normalized.transport, normalized.id, normalized.key,
    (normalized.proxy.map ProxyProfile.signature).getD "",
    (normalized.vkturn.map VkTurnConfig.signature).getD "",
    (normalized.masterDns.map MasterDnsConfig.signature).getD "",
    (normalized.openFlux.map OpenFluxConfig.signature).getD "",
    (normalized.snolc.map SnolcConfig.signature).getD ""]

def subscriptionSignature (location : LocationConfig) : String :=
  joinToString "|" (signatureParts location)

/-- With the name: several servers of one panel often share one endpoint. -/
def namedSubscriptionSignature (location : LocationConfig) : String :=
  subscriptionSignature location ++ "|" ++ trim location.name

end OlcVpn.Locations
