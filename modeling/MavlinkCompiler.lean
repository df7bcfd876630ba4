import MavlinkCompiler.Main
import MavlinkCompiler.Proofs.Model.Admission
import MavlinkCompiler.Proofs.Model.Growth
import MavlinkCompiler.Proofs.Model.MergedScopes
import MavlinkCompiler.Proofs.Model.Message
import MavlinkCompiler.Proofs.Model.Residue
import MavlinkCompiler.Proofs.Schema.Spelling
import MavlinkCompiler.Proofs.Schema.Writer
import MavlinkCompiler.Proofs.Storage.Delivery
import MavlinkCompiler.Proofs.Target.Distribution
import MavlinkCompiler.Proofs.Target.Keys
import MavlinkCompiler.Proofs.Target.Tiling
import MavlinkCompiler.Proofs.Wire.Checksum
import MavlinkCompiler.Proofs.Wire.Seed
import MavlinkCompiler.Proofs.Storage.Progress
import MavlinkCompiler.Proofs.Storage.Repetition
import MavlinkCompiler.Proofs.Target.Comment
import MavlinkCompiler.Proofs.Model.Attribute
import MavlinkCompiler.Proofs.Model.Capacity
import MavlinkCompiler.Proofs.Text.LetterCase
import MavlinkCompiler.Proofs.Target.Names
import MavlinkCompiler.Proofs.Model.Lookup
import MavlinkCompiler.Proofs.Schema.EntryValue
import MavlinkCompiler.Proofs.Wire.FieldType
import MavlinkCompiler.Proofs.Target.Wrapping
import MavlinkCompiler.Proofs.Model.Value
import MavlinkCompiler.Proofs.Target.Marking
import MavlinkCompiler.Proofs.Wire.Detection
import MavlinkCompiler.Proofs.Target.Description
