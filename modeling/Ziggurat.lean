import Ziggurat.Primitives
import Ziggurat.Inv
import Ziggurat.HashSet
import Ziggurat.KnownConnection
import Ziggurat.KnownNetwork
import Ziggurat.Interleaving
import Ziggurat.Freshness
import Ziggurat.Graph
import Ziggurat.Node
import Ziggurat.NodeRuns
import Ziggurat.Handshake
