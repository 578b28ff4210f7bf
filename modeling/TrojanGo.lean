import TrojanGo.Layers
import TrojanGo.AcceptLoop
import TrojanGo.Shutdown
import TrojanGo.CertCheck
import TrojanGo.Relay
import TrojanGo.Traffic
import TrojanGo.Pipeline
import TrojanGo.Stacks
import TrojanGo.Startup
import TrojanGo.Config
import TrojanGo.ProxyRelay
import TrojanGo.ProxyShutdown
import TrojanGo.NewProxy
import TrojanGo.TreeClose
