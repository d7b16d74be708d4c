import CircularLog.Session
import CircularLog.Main
import CircularLog.Proofs.DataCircle
import CircularLog.Proofs.Step
import CircularLog.Proofs.Creating
import CircularLog.Proofs.Draining
import CircularLog.Proofs.Holding
import CircularLog.Proofs.Refinement
import CircularLog.Proofs.Retention
import CircularLog.Proofs.Delivery
import CircularLog.Proofs.CommandLine
import CircularLog.Proofs.FreeSpace
import CircularLog.Proofs.SideBySide
import CircularLog.Proofs.Rotation
import CircularLog.Proofs.Contents
import CircularLog.Proofs.Accepting
import CircularLog.Proofs.Refusing
import CircularLog.Proofs.Reading
import CircularLog.Proofs.CaughtUp
import CircularLog.Proofs.Transfers
import CircularLog.Proofs.LongestRecord
import CircularLog.Proofs.Damage
import CircularLog.Proofs.Retrying
import CircularLog.Proofs.LengthPrefix
import CircularLog.Proofs.InputLines
import CircularLog.Proofs.Printing
import CircularLog.Proofs.Ways
import CircularLog.Proofs.Fields
import CircularLog.Proofs.SizeGrammar
import CircularLog.Proofs.AllOrNothing
