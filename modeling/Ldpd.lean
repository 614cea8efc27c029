import Ldpd.Lde.Retention
import Ldpd.Lde.ExplicitNull
import Ldpd.Lde.Tracking
import Ldpd.Lde.Database
import Ldpd.Lde.Request
import Ldpd.Lde.Wildcard
import Ldpd.Lde.Withdraw
import Ldpd.Lde.Arrival
import Ldpd.Lde.Hop
import Ldpd.Ldpe.Sound
import Ldpd.Ldpe.Identity
import Ldpd.Ldpe.Leak
import Ldpd.Ldpe.Trailer
import Ldpd.Ldpe.Severity
import Ldpd.Ldpe.HelloWire
import Ldpd.Main.Sockets
import Ldpd.Main.Merge
import Ldpd.Main.Grammar
import Ldpd.Main.Parse
import Ldpd.Main.Process
import Ldpd.Ldpe.Targets
import Ldpd.Ldpe.Activation
import Ldpd.Ldpe.Connect
import Ldpd.Ldpe.Pfkey
import Ldpd.Main.Redistribute
import Ldpd.Main.Fecs
import Ldpd.Main.Scope
import Ldpd.Main.Settings
import Ldpd.Main.Fresh
import Ldpd.Main.Fib
import Ldpd.Main.Replay
import Ldpd.Main.Match
import Ldpd.Compare
import Ldpd.Daemon
import Ldpd.Routers
