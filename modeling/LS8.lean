import LS8.Main
import LS8.Proofs.RunLoop
import LS8.Proofs.ShadowStack
import LS8.Proofs.ListingColumns
import LS8.Proofs.SaveRestore
import LS8.Proofs.Restoring
import LS8.Proofs.ListedCode
import LS8.Proofs.RunReply
import LS8.Proofs.FaultReport
import LS8.Proofs.ReturnAddress
import LS8.Proofs.LastComparison
import LS8.Proofs.Bookkeeping
import LS8.Proofs.ClosedPrinter
import LS8.Proofs.Slices
import LS8.Proofs.Recurrence
import LS8.Proofs.ImageAppend
import LS8.Proofs.InPlace
import LS8.Proofs.StraightLine
import LS8.Proofs.LastWriter
import LS8.Proofs.StackCalls
import LS8.Proofs.RunLog
import LS8.Proofs.Defects
