import Myelin.Consensus.Agreement
import Myelin.Consensus.Precommit
import Myelin.State.Availability
import Myelin.Session.Preimages
import Myelin.Transfer.Conservation
import Myelin.Runtime.Evidence
import Myelin.Store.Chain
import Myelin.Producer.Window
import Myelin.Ckb.Context
import Myelin.Escrow.Encoding
import Myelin.Escrow.Exit
import Myelin.Journal.Reserving
import Myelin.State.LiveSet
import Myelin.State.Segment
import Myelin.Exec.Identity
import Myelin.Bundle.Cut
import Myelin.Mempool.Packages
import Myelin.Mempool.Replacement
import Myelin.Vm.ScriptGroups
import Myelin.Consensus.Rotation
import Myelin.Consensus.Commitments
