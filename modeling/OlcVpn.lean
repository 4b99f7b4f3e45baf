import OlcVpn.Bond.Pair
import OlcVpn.Bond.Isolation
import OlcVpn.Locations.BundleCache
import OlcVpn.Locations.RefreshTakeover
import OlcVpn.Locations.Save
import OlcVpn.Import.Reimport
import OlcVpn.Import.Fields
import OlcVpn.SingBox.RouteKept
import OlcVpn.Generate.Agree
import OlcVpn.Xray.StripGeo
import OlcVpn.Xray.Ports
import OlcVpn.Socks.Association
import OlcVpn.Socks.Relay
import OlcVpn.Share.Inbound
import OlcVpn.Share.OtherRoundTrip
import OlcVpn.Update.DeltaFits
import OlcVpn.Update.RunsHere
import OlcVpn.Update.Confined
import OlcVpn.SingBox.HiddenV6
import OlcVpn.SingBox.RuleSets
import OlcVpn.Geo.AsnResolver
