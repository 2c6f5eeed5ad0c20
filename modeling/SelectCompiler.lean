import SelectCompiler.Main
import SelectCompiler.OptionGroup
import SelectCompiler.ReturnFields
import SelectCompiler.Statement.ImpactArea
import SelectCompiler.Proofs.Outcome
import SelectCompiler.Proofs.Predicate.Leaves
import SelectCompiler.Proofs.Where.Scan
import SelectCompiler.Proofs.Where.Success
import SelectCompiler.Proofs.Where.Numbering
import SelectCompiler.Proofs.Predicate.Reading
import SelectCompiler.Proofs.Join.Chain
import SelectCompiler.Proofs.Join.Placement
import SelectCompiler.Proofs.Predicate.Canonical
import SelectCompiler.Proofs.Join.Order
import SelectCompiler.Proofs.Masking.Basic
import SelectCompiler.Proofs.Masking.Reading
import SelectCompiler.Proofs.Masking.Compilation
import SelectCompiler.Proofs.Join.Settlement
import SelectCompiler.Proofs.Join.Account
import SelectCompiler.Proofs.Text.Words
import SelectCompiler.Proofs.Join.Conditions
import SelectCompiler.Proofs.Join.Emission
import SelectCompiler.Proofs.Statement.JoinConditions
import SelectCompiler.Proofs.Join.Schedule
import SelectCompiler.Proofs.Boolean.Joined
import SelectCompiler.Proofs.Where.Balance
import SelectCompiler.Proofs.Statement.Meaning
import SelectCompiler.Proofs.Statement.Strictness
import SelectCompiler.Proofs.Postgres.Statement
import SelectCompiler.Proofs.Where.Meaning
import SelectCompiler.Proofs.Where.Merging
import SelectCompiler.Proofs.Where.Canonical
import SelectCompiler.Proofs.Predicate.Spelling
import SelectCompiler.Proofs.Predicate.Composition
import SelectCompiler.Proofs.Statement.Composition
import SelectCompiler.Proofs.Join.Scope
import SelectCompiler.Proofs.Predicate.Parts
import SelectCompiler.Proofs.Predicate.Outline
import SelectCompiler.Proofs.Join.Budget
import SelectCompiler.Proofs.Join.Deadlock
import SelectCompiler.Proofs.Join.Stability
import SelectCompiler.Proofs.Where.Trimmed
import SelectCompiler.Proofs.Where.Faults
import SelectCompiler.Proofs.Join.Mentions
import SelectCompiler.Proofs.Text.Bytes
import SelectCompiler.Proofs.Postgres.Pieces
import SelectCompiler.Proofs.OptionGroup.Classes
import SelectCompiler.Proofs.OptionGroup.Pairings
import SelectCompiler.Proofs.Predicate.Objects
import SelectCompiler.Proofs.Where.Equality
import SelectCompiler.Proofs.Statement.Unfiltered
import SelectCompiler.Proofs.OptionGroup.Partition
import SelectCompiler.Proofs.Join.Spelling
import SelectCompiler.Proofs.Postgres.Integer
import SelectCompiler.Proofs.Statement.ImpactArea
import SelectCompiler.Proofs.Json.Members
import SelectCompiler.Proofs.Where.Forecast
import SelectCompiler.Proofs.Projection
import SelectCompiler.Proofs.Postgres.Moment
import SelectCompiler.Proofs.Statement.Clauses
