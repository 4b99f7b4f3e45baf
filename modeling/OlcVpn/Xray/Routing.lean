/-
  The ROUTING BLOCK of a generated Xray configuration, from a routing profile.

  A profile has three buckets (block, direct, proxy), each with a list of sites and a list of
  addresses.  Xray ANDs the fields of one rule, so every bucket becomes up to TWO rules: one for its
  sites, one for its addresses.  A profile that is not a global proxy ends with a rule that catches
  the rest.
-/
import OlcVpn.Generate.Settings
import OlcVpn.Kotlin.Json

namespace OlcVpn.Xray

open Kotlin Generate List

/-- A rule that sends what one condition matches to an outbound. -/
def fieldRule (condition : String) (values : Json) (outboundTag : String) : JsonObject :=
  [("type", .str "field"), (condition, values), ("outboundTag", .str outboundTag)]

/-- The tag a bucket's rules name. -/
def bucketTag : Bucket → String
  | .block => "block"
  | .direct => "direct"
  | .proxy => "proxy"

variable (p : RoutingProfile)

def domainStrategy : String :=
  if p.expertEnabled && isNotBlank p.xrayDomainStrategy then p.xrayDomainStrategy
  else if p.domainStrategy ∈ ["IPIfNonMatch", "IPOnDemand", "AsIs"] then p.domainStrategy
  else if p.domainStrategy ∈ ["ipv4_only", "ipv6_only", "prefer_ipv4", "prefer_ipv6"] then
    "IPIfNonMatch"
  else "AsIs"

/-- The site selectors of a bucket that are emitted. -/
def siteEntries (sites : List String) : List String := (sites.map trim).filter (· ≠ "")

/-- The address selectors of a bucket that are emitted: an unresolved `asn:` is not. -/
def ipEntries (ips : List String) : List String :=
  (ips.map trim).filter fun entry => entry ≠ "" && !isAsnSelector entry

/-- Separate rules for the sites and the addresses of a bucket. -/
def bucketSplitRules (sites ips : List String) (tag : String) : List JsonObject :=
  (if siteEntries sites = [] then []
    else [fieldRule "domain" (.strs (siteEntries sites)) tag]) ++
  (if ipEntries ips = [] then [] else [fieldRule "ip" (.strs (ipEntries ips)) tag])

def bucketRules : List JsonObject :=
  p.order.flatMap fun bucket => bucketSplitRules (p.sites bucket) (p.ips bucket) (bucketTag bucket)

/-- What no rule caught goes direct, unless the profile is a global proxy. -/
def catchAllDirectRule : List JsonObject :=
  if p.globalProxy then [] else [fieldRule "network" (.strs ["tcp", "udp"]) "direct"]

def rules : List JsonObject := bucketRules p ++ catchAllDirectRule p

theorem mem_bucketSplitRules {sites ips : List String} {tag : String} {rule : JsonObject}
    (h : rule ∈ bucketSplitRules sites ips tag) :
    ∃ condition ∈ ["domain", "ip"], ∃ texts, rule = fieldRule condition (.strs texts) tag := by
  unfold bucketSplitRules at h
  rcases mem_append.mp h with hsite | hip
  · split_ifs at hsite
    · simp at hsite
    · exact ⟨"domain", by simp, _, mem_singleton.mp hsite⟩
  · split_ifs at hip
    · simp at hip
    · exact ⟨"ip", by simp, _, mem_singleton.mp hip⟩

/-- Every rule of a profile names one of the three tags. -/
theorem mem_rules {p : RoutingProfile} {rule : JsonObject} (h : rule ∈ rules p) :
    ∃ condition ∈ ["domain", "ip", "network"], ∃ texts bucket,
      rule = fieldRule condition (.strs texts) (bucketTag bucket) := by
  rcases mem_append.mp h with hbucket | hcatch
  · obtain ⟨bucket, -, hmem⟩ := mem_flatMap.mp hbucket
    obtain ⟨condition, hcondition, texts, rfl⟩ := mem_bucketSplitRules hmem
    exact ⟨condition, mem_append_left ["network"] hcondition, texts, bucket, rfl⟩
  · unfold catchAllDirectRule at hcatch
    split_ifs at hcatch
    · simp at hcatch
    · exact ⟨"network", by simp, ["tcp", "udp"], .direct, mem_singleton.mp hcatch⟩

end OlcVpn.Xray
