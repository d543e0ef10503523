import IdMint.Calendar.Written
import IdMint.Mint.Callers
import IdMint.Mint.Desk
import IdMint.Session
import IdMint.Proofs.Mint.Uniqueness
import IdMint.Proofs.Mint.Fallback
import IdMint.Proofs.Mint.Looks
import IdMint.Proofs.Generator.Readings
import IdMint.Proofs.Generator.Parts
import IdMint.Proofs.Layout.Fields
import IdMint.Proofs.Generator.Sorting
import IdMint.Proofs.Generator.Series
import IdMint.Proofs.Generator.Trail
import IdMint.Proofs.Fleet.Numbering
import IdMint.Proofs.Generator.Backward
import IdMint.Proofs.Generator.Ending
import IdMint.Proofs.Generator.Stream
import IdMint.Proofs.Generator.Events
import IdMint.Proofs.Generator.Tolerance
import IdMint.Proofs.Generator.Shift
import IdMint.Proofs.Blueprint.Verdict
import IdMint.Proofs.Fleet.FirstId
import IdMint.Proofs.Fleet.FarSetback
import IdMint.Proofs.Station.Basic
import IdMint.Proofs.Bench
import IdMint.Proofs.Session
import IdMint.Proofs.Station.Poisoning
import IdMint.Proofs.Station.SteadyClock
import IdMint.Proofs.Blueprint.Variables
import IdMint.Proofs.ObjectId.Text
import IdMint.Proofs.ObjectId.Order
import IdMint.Proofs.Mint.ObjectIds
import IdMint.Proofs.Layout.IssueTime
import IdMint.Proofs.Fleet.Standing
import IdMint.Proofs.Fleet.Arithmetic
import IdMint.Proofs.Generator.Working
