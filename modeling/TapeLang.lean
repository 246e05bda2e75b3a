import TapeLang.CommandLine.Work
import TapeLang.FileTree
import TapeLang.Generate.ByteSource
import TapeLang.Generate.Free
import TapeLang.Generate.Nested
import TapeLang.Main
import TapeLang.Proofs.AllOrNothing
import TapeLang.Proofs.Bijections
import TapeLang.Proofs.Calls
import TapeLang.Proofs.Composition
import TapeLang.Proofs.ControlFlow
import TapeLang.Proofs.CountingLoops
import TapeLang.Proofs.Diagnosis
import TapeLang.Proofs.Encoding
import TapeLang.Proofs.Evaluation
import TapeLang.Proofs.EveryNestedSource
import TapeLang.Proofs.FullSink
import TapeLang.Proofs.Indentation
import TapeLang.Proofs.Linking
import TapeLang.Proofs.ListedProgram
import TapeLang.Proofs.Lockstep
import TapeLang.Proofs.LongerTape
import TapeLang.Proofs.NestedSources
import TapeLang.Proofs.Offsets
import TapeLang.Proofs.PendingBrackets
import TapeLang.Proofs.Pieces
import TapeLang.Proofs.RawScan
import TapeLang.Proofs.Retranslation
import TapeLang.Proofs.Retrying
import TapeLang.Proofs.RingMemory
import TapeLang.Proofs.Sessions
import TapeLang.Proofs.SuppliedChoices
import TapeLang.Proofs.TurnedTape
import TapeLang.Stream.Script
