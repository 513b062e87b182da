import TextTemplate.Library
import TextTemplate.Session
import TextTemplate.Settings.Load
import TextTemplate.Proofs.Except
import TextTemplate.Proofs.Data
import TextTemplate.Proofs.Trees
import TextTemplate.Proofs.Rendering.Chains
import TextTemplate.Proofs.Rendering.Cycles
import TextTemplate.Proofs.Rendering.Unlimited
import TextTemplate.Proofs.Group.Steps
import TextTemplate.Proofs.Group.Grammar
import TextTemplate.Proofs.Group.Lexemes
import TextTemplate.Proofs.Group.RoundTrip
import TextTemplate.Proofs.Rendering.Closed
import TextTemplate.Proofs.Rendering.Inlining
import TextTemplate.Proofs.Rendering.Accumulation
import TextTemplate.Proofs.Places.Body
import TextTemplate.Proofs.Places.Tokens
import TextTemplate.Proofs.Places.Declarations
import TextTemplate.Proofs.Places.Shift
import TextTemplate.Proofs.Refusals
import TextTemplate.Proofs.Families
import TextTemplate.Proofs.Snapshots
import TextTemplate.Proofs.StaticGroups
import TextTemplate.Proofs.Diagnostics
import TextTemplate.Proofs.Rendering.Concatenation
import TextTemplate.Proofs.Group.Boundaries
import TextTemplate.Proofs.Group.Cuts
import TextTemplate.Proofs.Group.Layout
import TextTemplate.Proofs.Group.Wrapping
import TextTemplate.Proofs.Body.Grammar
import TextTemplate.Proofs.Group.AngleBodies
import TextTemplate.Proofs.Group.QuotedLiterals
import TextTemplate.Proofs.Group.Offsets
import TextTemplate.Proofs.Places.Locations
import TextTemplate.Proofs.Group.Coverage
import TextTemplate.Proofs.Group.Matching
import TextTemplate.Proofs.Group.Readers
import TextTemplate.Proofs.Group.BodyFaults
import TextTemplate.Proofs.Group.Completions
import TextTemplate.Proofs.Rendering.Insertions
import TextTemplate.Proofs.Places.Lines
import TextTemplate.Proofs.Diagnostics.SingleLine
import TextTemplate.Proofs.Decimal.Values
import TextTemplate.Proofs.Decimal.Numerals
import TextTemplate.Proofs.Decimal.Layouts
import TextTemplate.Proofs.Diagnostics.Gutter
import TextTemplate.Proofs.Group.Names
import TextTemplate.Proofs.StaticGroups.Accessors
import TextTemplate.Proofs.Libraries
import TextTemplate.Proofs.Settings
