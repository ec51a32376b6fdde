import SpringArm.CommandLine.Run
import SpringArm.Main
import SpringArm.Proofs.Build.Sound
import SpringArm.Proofs.Build.Exchange
import SpringArm.Proofs.Build.Connected
import SpringArm.Proofs.Build.Overlong
import SpringArm.Proofs.Expansion.Ends
import SpringArm.Proofs.Expansion.Meaning
import SpringArm.Proofs.Expansion.Problems
import SpringArm.Proofs.Growth.Again
import SpringArm.Proofs.Growth.Crossings
import SpringArm.Proofs.Growth.Heights
import SpringArm.Service
import SpringArm.Workbench.Basic
import SpringArm.Workbench.Command
import SpringArm.Workbench.Run
import SpringArm.Proofs.Blueprint.Told
import SpringArm.Proofs.Exchange.Reread
import SpringArm.Proofs.Exchange.Agreement
import SpringArm.Proofs.Exchange.Acceptance
import SpringArm.Proofs.Blueprint.Skeleton
import SpringArm.Proofs.Blueprint.Composed
import SpringArm.Proofs.Blueprint.Spelling
import SpringArm.Proofs.Blueprint.Items
import SpringArm.Proofs.Blueprint.Recognition
import SpringArm.Proofs.Blueprint.Extraction
import SpringArm.Proofs.Blueprint.Values
import SpringArm.Proofs.Blueprint.Letters
import SpringArm.Proofs.Growth.Construction
import SpringArm.Proofs.Binary64.Sign
import SpringArm.Proofs.Growth.Masses
import SpringArm.Proofs.Expansion.Counts
import SpringArm.Proofs.Blueprint.Counts
import SpringArm.Proofs.Build.Collected
import SpringArm.Proofs.Expansion.Limit
import SpringArm.Proofs.Expansion.OnePass
import SpringArm.Proofs.Growth.Overflow
import SpringArm.Proofs.Build.Surfaces
import SpringArm.Proofs.Growth.Checked
import SpringArm.Proofs.Growth.DeadEnds
import SpringArm.Proofs.Growth.Walk
import SpringArm.Proofs.Growth.Accounts
import SpringArm.Proofs.Expansion.Positions
import SpringArm.Proofs.Growth.RandomSprings
import SpringArm.Proofs.Growth.Levels
import SpringArm.Proofs.Geometry.Meeting
