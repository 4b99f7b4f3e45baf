/-
  REFRESHING SUBSCRIPTIONS: ask every target URL again and replace its servers by the answer.

  The entries of the other URLs, and those added by hand, are the start of the new list.  Then the
  target URLs are gone through in order.  A URL that cannot be fetched keeps its entries, stamped
  with the time of the attempt.  A URL that answers has its entries replaced: an answered server
  that is recognised by its signature takes over the storage id of the entry it was, the rest get
  new ids. `usedStorageIds` collects the ids the new list has so far; the ids of the URLs still to
  come are not in it.
-/
import OlcVpn.Lib.Claim
import OlcVpn.Locations.Signature
import OlcVpn.Locations.StorageId

namespace OlcVpn.Locations

open Kotlin
open LocationEntry (storageId)

/-! ## Subscription metadata -/

variable (metadata : Option LocationMetadata)

/-- Rewrite the subscription part of an entry's metadata, absent parts counting as defaults. -/
def withSubscription (update : SubscriptionMetadata → SubscriptionMetadata) : LocationMetadata :=
  let subscription := (metadata.bind LocationMetadata.subscription).getD {}
  LocationMetadata.normalized
    { metadata.getD {} with subscription := some (update subscription) }

/-- What a successful refresh writes into the metadata of a server. -/
structure RefreshStamp where
  updateIntervalHours : Int
  timestamp : Int
  autoUpdateEnabled : Bool
  customName : Option String

def withSubscriptionRefreshState (stamp : RefreshStamp) :
    LocationMetadata :=
  withSubscription metadata fun subscription =>
    { subscription with
      updateIntervalHours := some stamp.updateIntervalHours
      lastRefreshAtEpochMs := some stamp.timestamp
      lastAttemptAtEpochMs := some stamp.timestamp
      autoUpdateEnabled := stamp.autoUpdateEnabled
      customName := stamp.customName }

def withSubscriptionAttemptState (timestamp : Int) :
    LocationMetadata :=
  withSubscription metadata fun subscription =>
    { subscription with lastAttemptAtEpochMs := some timestamp }

def LocationEntry.subscription (e : LocationEntry) : Option SubscriptionMetadata :=
  e.metadata.bind LocationMetadata.subscription

variable (entries : List LocationEntry)

def subscriptionUpdateIntervalHours : Option Int :=
  entries.findSome? fun e => e.subscription.bind SubscriptionMetadata.updateIntervalHours

/-- Off for the group if any of its entries has it off. -/
def subscriptionAutoUpdateEnabled : Bool :=
  !entries.any fun e => e.subscription.map SubscriptionMetadata.autoUpdateEnabled = some false

def subscriptionCustomName : Option String :=
  entries.findSome? fun e => e.subscription.bind SubscriptionMetadata.customName

/-! ## The outside -/

/-- An answer: the servers of a panel, all of which can be stored. -/
structure ResolvedImport where
  updateIntervalHours : Option Int := none
  locations : List LocationEntry
  storable : ∀ e ∈ locations, e.location.isStorable = true

/-- What a refresh meets: the answer to each URL, if there is one, and the clock when it asks. -/
structure World where
  resolveParsedImport : String → Option ResolvedImport
  nowEpochMs : String → Int
  nowEpochMs_pos : ∀ url, 0 < nowEpochMs url

/-! ## Groups -/

/-- The public list that is never refreshed here. -/
def freeServersUrl : String :=
  "https://raw.githubusercontent.com/zieng2/wl/main/vless_universal.txt"

/-- The URL an entry is grouped under. -/
def LocationEntry.groupUrl (e : LocationEntry) : Option String :=
  (e.subscriptionUrl.map trim).filter isNotBlank

/-- Whether a URL is asked; `onlyUrls` is absent where all are. -/
def isTarget (onlyUrls : Option (List String)) (url : String) : Bool :=
  url ≠ freeServersUrl && onlyUrls.all fun urls => urls.contains url

variable (bundle : LocationBundle)

variable (onlyUrls : Option (List String))

def groupedByUrl :
    List (String × List LocationEntry) :=
  let keyed := bundle.locations.filterMap fun e => e.groupUrl.map fun url => (url, e)
  ((groupBy Prod.fst keyed).map fun group => (group.1, group.2.map Prod.snd)).filter
    fun group => isTarget onlyUrls group.1

/-! ## One URL -/

structure RefreshState where
  refreshedLocations : List LocationEntry
  usedStorageIds : List String
  activeAfter : Option String
  successfulRefreshes : Nat := 0
  attemptStateChanged : Bool := false

/-- A previous entry, stamped with the time of the attempt. -/
def LocationEntry.attempted (e : LocationEntry) (timestamp : Int) : LocationEntry :=
  LocationEntry.normalized
    { e with metadata := some (withSubscriptionAttemptState e.metadata timestamp) }

/-- Entries whose id is in use already are left out. -/
def preservePreviousEntries (timestamp : Int) (s : RefreshState) :
    List LocationEntry → RefreshState
  | [] => s
  | e :: entries =>
    if e.storageId ∈ s.usedStorageIds then preservePreviousEntries timestamp s entries
    else
      preservePreviousEntries timestamp
        { s with
          refreshedLocations := s.refreshedLocations ++ [e.attempted timestamp]
          usedStorageIds := e.storageId :: s.usedStorageIds }
        entries

/-- The previous entries with the signature of `e`. -/
def pool (signature : LocationConfig → String) (previous : List LocationEntry)
    (e : LocationEntry) : List LocationEntry :=
  ((groupBy (fun p : LocationEntry => signature p.location) previous).lookup
    (signature e.location)).getD []

/-- Exact matches are resolved for the whole list before any fallback.  The second part is the ids
    taken over. -/
def reuse (previous refreshed : List LocationEntry) :
    List (LocationEntry × Option LocationEntry) × List String :=
  let exactReuse := Claim.pass storageId (pool namedSubscriptionSignature previous) []
    (refreshed.map fun e => (e, none))
  Claim.pass storageId (pool subscriptionSignature previous) exactReuse.2 exactReuse.1

/-- The id of a server that is not recognised. -/
def freshStorageId (index : Nat) (e : LocationEntry) (used : List String) : String :=
  uniqueStorageId (importedBase e.location.storageSlug index) used

/-- An answered server under its id. -/
def LocationEntry.refreshed (e : LocationEntry) (url : String) (stamp : RefreshStamp)
    (storageId : String) : LocationEntry :=
  LocationEntry.normalized
    { e with
      storageId := storageId
      subscriptionUrl := some url
      metadata := some (withSubscriptionRefreshState e.metadata stamp) }

def refreshStamp (timestamp : Int) (previous : List LocationEntry) (answer : ResolvedImport) :
    RefreshStamp where
  updateIntervalHours :=
    (answer.updateIntervalHours.or (subscriptionUpdateIntervalHours previous)).getD 24
  timestamp := timestamp
  autoUpdateEnabled := subscriptionAutoUpdateEnabled previous
  customName := subscriptionCustomName previous

/-- Replace the entries of a URL by its answer. -/
def acceptAnswer (activeBefore : Option String) (timestamp : Int) (s : RefreshState) (url : String)
    (previous : List LocationEntry) (answer : ResolvedImport) : RefreshState :=
  let reused := reuse previous answer.locations
  let assigned := Claim.assign storageId freshStorageId
    (reused.2 ++ s.usedStorageIds) 0 reused.1
  let reassigned := List.zipWith
    (fun e id => e.refreshed url (refreshStamp timestamp previous answer) id)
    answer.locations assigned.1
  let activeInThisGroup :=
    activeBefore.isSome && previous.any fun e => activeBefore = some e.storageId
  -- the id the selection is set to is then the active one itself
  let activeReusedHere := activeBefore.isSome &&
    reused.1.any fun pair => pair.2.map storageId = activeBefore
  { s with
    refreshedLocations := s.refreshedLocations ++ reassigned
    usedStorageIds := assigned.2
    activeAfter :=
      if activeReusedHere then activeBefore
      else if activeInThisGroup then reassigned.head?.map storageId
      else s.activeAfter
    successfulRefreshes := s.successfulRefreshes + 1 }

/-- The answer a refresh goes by: none where the fetch failed or brought nothing. -/
def World.answer (w : World) (url : String) : Option ResolvedImport :=
  (w.resolveParsedImport url).filter fun answer => !answer.locations.isEmpty

def refreshGroup (w : World) (activeBefore : Option String) (s : RefreshState)
    (group : String × List LocationEntry) : RefreshState :=
  match w.answer group.1 with
  | none =>
    { preservePreviousEntries (w.nowEpochMs group.1) s group.2 with attemptStateChanged := true }
  | some answer => acceptAnswer activeBefore (w.nowEpochMs group.1) s group.1 group.2 answer

/-! ## The refresh -/

/-- The entries no target URL owns. -/
def untouched : List LocationEntry :=
  bundle.locations.filter fun e =>
    e.groupUrl.all fun url => !((groupedByUrl bundle onlyUrls).map Prod.fst).contains url

/-- The state a refresh starts from. -/
def refreshStart : RefreshState where
  refreshedLocations := untouched bundle onlyUrls
  usedStorageIds := (untouched bundle onlyUrls).map storageId
  activeAfter := bundle.activeLocationId

def refreshAll (w : World) (bundle : LocationBundle) (onlyUrls : Option (List String)) :
    RefreshState :=
  (groupedByUrl bundle onlyUrls).foldl (refreshGroup w bundle.activeLocationId)
    (refreshStart bundle onlyUrls)

/-- `refreshSubscriptionsUnlocked`: the number of URLs refreshed, and the bundle stored
    afterwards. -/
def refreshSubscriptions (w : World) (bundle : LocationBundle) (onlyUrls : Option (List String)) :
    Nat × LocationBundle :=
  if bundle.locations.isEmpty then (0, bundle)
  else if (groupedByUrl bundle onlyUrls).isEmpty then (0, bundle)
  else
    let s := refreshAll w bundle onlyUrls
    if s.successfulRefreshes = 0 && !s.attemptStateChanged then (0, bundle)
    else
      (s.successfulRefreshes, LocationBundle.normalized
          { activeLocationId := s.activeAfter, locations := s.refreshedLocations })

end OlcVpn.Locations
