import Folio.Main
import Folio.Site.FileTree
import Folio.Proofs.Limit
import Folio.Proofs.Repetition
import Folio.Proofs.Composition
import Folio.Proofs.Discovery
import Folio.Proofs.Cutoff
import Folio.Proofs.Turns
import Folio.Proofs.Protocol
import Folio.Proofs.Capital
import Folio.Proofs.Deferral
import Folio.Proofs.Naming
import Folio.Proofs.Grammar
import Folio.Proofs.Spelling
import Folio.Proofs.Sparse
import Folio.Proofs.Seeding
import Folio.Proofs.Layers
import Folio.Proofs.Schemes
import Folio.Proofs.Rows
import Folio.Proofs.Delivery
import Folio.Proofs.Stages
import Folio.Proofs.Sources
import Folio.Proofs.Precedence
import Folio.Proofs.Missing
import Folio.Proofs.Wraps
import Folio.Proofs.Texts
import Folio.Proofs.Strays
import Folio.Proofs.Retraction
