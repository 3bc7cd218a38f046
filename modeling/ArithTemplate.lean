import ArithTemplate.Main
import ArithTemplate.Proofs.Written.Unique
import ArithTemplate.Proofs.Written.Reading
import ArithTemplate.Proofs.Lenient.Mended
import ArithTemplate.Proofs.Lenient.InStep
import ArithTemplate.Proofs.Clipping
import ArithTemplate.Proofs.Made
import ArithTemplate.Proofs.Rendering.Layout
import ArithTemplate.Proofs.Rendering.Outcome
import ArithTemplate.Proofs.Rendering.Whole
import ArithTemplate.Proofs.Rendering.Cut
import ArithTemplate.Proofs.Advance
import ArithTemplate.Proofs.Lenient.Extending
import ArithTemplate.Proofs.Rendering.Strictness
import ArithTemplate.Proofs.DefaultText
import ArithTemplate.Proofs.Substitution.Replacing
import ArithTemplate.Proofs.Substitution.Skeleton
import ArithTemplate.Proofs.Substitution.Structure
import ArithTemplate.Proofs.Accounting
import ArithTemplate.Proofs.Written.Recovered
import ArithTemplate.Proofs.Rendering.Joined
import ArithTemplate.Proofs.Written.Parentheses
import ArithTemplate.Proofs.Written.Completion
import ArithTemplate.Proofs.Rendering.Places
import ArithTemplate.Proofs.Pattern.Characters
import ArithTemplate.Proofs.Rendering.Again
import ArithTemplate.Proofs.Command.Arguments
import ArithTemplate.Proofs.Command.Render
import ArithTemplate.Proofs.Written.Specification
import ArithTemplate.Proofs.Written.Format
import ArithTemplate.Proofs.Command.Obstacles
import ArithTemplate.Proofs.Pattern.Point
import ArithTemplate.Proofs.Substitution.Segments
import ArithTemplate.Proofs.Pattern.ReadBack
import ArithTemplate.Proofs.Pattern.Width
import ArithTemplate.Proofs.Written.Integer
import ArithTemplate.Proofs.Written.Longest
import ArithTemplate.Proofs.Json.Quoted
import ArithTemplate.Proofs.Json.Literal
import ArithTemplate.Proofs.Rendering.Logged
import ArithTemplate.Proofs.Readability
import ArithTemplate.Proofs.Json.Settings
import ArithTemplate.Proofs.Json.Agreement
import ArithTemplate.Proofs.Pattern.Length
import ArithTemplate.Proofs.Scanning
import ArithTemplate.Proofs.Growth
