import EDBus.Semantics.Execution
import EDBus.Dbus.TimeoutSoundness
import EDBus.Dbus.WatchCoverage
import EDBus.Dbus.ConnectionBalance
import EDBus.Dbus.Object
import EDBus.Dbus.IntrospectionAgreement
import EDBus.Dbus.ObjectProperties
import EDBus.Dbus.OwnerTracking
import EDBus.Dbus.DeferredDeletion
import EDBus.Elements.Calls
import EDBus.Elements.EventOrder
import EDBus.Elements.Interfaces
import EDBus.Elements.Lifetime
import EDBus.Elements.Listeners
import EDBus.Elements.NameOwner
import EDBus.Elements.ObjectsArray
import EDBus.Elements.Pending
import EDBus.Elements.PropertyGetters
import EDBus.Elements.PropertyStore
import EDBus.Elements.References
import EDBus.Notify.Capabilities
import EDBus.Notify.Image
import EDBus.Notify.ImagePixels
import EDBus.Notify.Marshal
import EDBus.Notify.RoundTrip
import EDBus.Notify.HintTypes
import EDBus.Notify.HintFlags
import EDBus.Notify.DaemonLifetime
import EDBus.Devices.TypedGetters
import EDBus.Replies.TypedCalls
import EDBus.Replies.Release
import EDBus.Replies.Results
import EDBus.Lifecycle.Balance
import EDBus.Lifecycle.OfonoShutdown
import EDBus.Notify.DaemonClients
import EDBus.Dbus.Subscription
import EDBus.Elements.Replication
import EDBus.Dbus.Dispatch
import EDBus.Elements.Listing
import EDBus.Notify.Ownership
