import Patchbay.Main
import Patchbay.Proofs.Demo.Reporting
import Patchbay.Proofs.Route.TwoWay
import Patchbay.Proofs.Session.Admission
import Patchbay.Proofs.Session.Eviction
import Patchbay.Proofs.Session.Interleaving
import Patchbay.Proofs.Session.Metering
import Patchbay.Proofs.Session.Mix
import Patchbay.Proofs.Session.Release
import Patchbay.Proofs.Session.Staleness
import Patchbay.Proofs.Session.Unloading
import Patchbay.Proofs.Tone.Expiry
import Patchbay.Proofs.Tone.Loading
import Patchbay.Proofs.Config.Saved
import Patchbay.Proofs.Exchange.Clipping
import Patchbay.Proofs.Session.Commuting
import Patchbay.Proofs.Sound.Handing
import Patchbay.Proofs.Tone.Walk
import Patchbay.Proofs.Session.Pausing
import Patchbay.Proofs.Config.Periods
import Patchbay.Proofs.Engine.Custody
import Patchbay.Proofs.Sound.Channels
import Patchbay.Proofs.Tone.Input
