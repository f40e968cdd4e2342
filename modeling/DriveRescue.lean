import DriveRescue.Ata
import DriveRescue.Main
import DriveRescue.Strategy.Run
import DriveRescue.TransferBuffer
import DriveRescue.Proofs.Access.Writing
import DriveRescue.Proofs.Zones.Reading
import DriveRescue.Proofs.Strategy.Choice
import DriveRescue.Proofs.Strategy.Consumption
import DriveRescue.Proofs.Strategy.Exhaustion
import DriveRescue.Proofs.Strategy.Retracing
import DriveRescue.Proofs.Journal.Mirror
import DriveRescue.Proofs.Journal.Marks
import DriveRescue.Proofs.Copy.Effects
import DriveRescue.Proofs.Copy.Agreement
import DriveRescue.Proofs.Copy.Lifetime
import DriveRescue.Proofs.Copy.Integrity
import DriveRescue.Proofs.Copy.Opening
import DriveRescue.Proofs.Copy.Turning
import DriveRescue.Proofs.Copy.Resumption
import DriveRescue.Proofs.Copy.LeapResumption
import DriveRescue.Proofs.Copy.Alignment
import DriveRescue.Proofs.Strategy.Borders
import DriveRescue.Proofs.Strategy.Leftovers
import DriveRescue.Proofs.Copy.Accuracy
import DriveRescue.Proofs.Strategy.Damage
import DriveRescue.Proofs.Zones.Operations
import DriveRescue.Proofs.Copy.Bookkeeping
import DriveRescue.Proofs.Copy.Restoration
import DriveRescue.Proofs.Copy.Influence
import DriveRescue.Proofs.Copy.FailedOpening
import DriveRescue.Proofs.Strategy.Sweeping
import DriveRescue.Proofs.Procedure.Delivery
import DriveRescue.Proofs.Copy.FirstFailure
import DriveRescue.Proofs.Copy.Completion
import DriveRescue.Proofs.Strategy.LeapLength
import DriveRescue.Proofs.Strategy.GivingUp
import DriveRescue.Proofs.Strategy.Staging
import DriveRescue.Proofs.Journal.Reopening
import DriveRescue.Proofs.Procedure.Closing
import DriveRescue.Proofs.Surface.Scanning
import DriveRescue.Proofs.Surface.Filling
import DriveRescue.Proofs.Settings.LastWins
import DriveRescue.Proofs.Settings.TextForms
import DriveRescue.Proofs.Settings.Layering
import DriveRescue.Proofs.Ata.Addressing
import DriveRescue.Proofs.Access.Allocation
import DriveRescue.Proofs.Ata.Classification
