import Concord.Locale
import Concord.Session
import Concord.Template.Print
import Concord.Proofs.Template.Body
import Concord.Proofs.Template.Reading
import Concord.Proofs.Template.PatternRoundTrip
import Concord.Proofs.Template.Scanning
import Concord.Proofs.Template.WellFormed
import Concord.Proofs.Template.RoundTrip
import Concord.Proofs.Resolution.Faults
import Concord.Proofs.Review.Agreement
import Concord.Proofs.Grammar.Aliases
import Concord.Proofs.Lexicon.Flattening
import Concord.Proofs.Lexicon.Queries
import Concord.Proofs.Localizer.Rebuilding
import Concord.Proofs.Session.Transparency
import Concord.Proofs.Interpolation.OnePass
import Concord.Proofs.Grammar.Validity
import Concord.Proofs.Resolution.Leniency
import Concord.Proofs.Session.Isolation
import Concord.Proofs.Template.Partition
import Concord.Proofs.Template.Concatenation
import Concord.Proofs.Template.Extent
import Concord.Proofs.Resolution.Renumbering
import Concord.Proofs.Resolution.Defaults
import Concord.Proofs.Resolution.StandIns
import Concord.Proofs.Resolution.Synonyms
import Concord.Proofs.Resolution.Problems
import Concord.Proofs.Resolution.Groups
import Concord.Proofs.Review.Fallbacks
import Concord.Proofs.Review.Provision
import Concord.Proofs.Resolution.Likeness
import Concord.Proofs.Review.Duplicates
import Concord.Proofs.Grammar.Violations
import Concord.Proofs.Grammar.WrittenForm
import Concord.Proofs.Template.Quotation
import Concord.Proofs.Template.Division
import Concord.Proofs.Template.Specifiers
import Concord.Proofs.Text.EditDistance
import Concord.Proofs.Suggestion
import Concord.Proofs.Template.Respelling
import Concord.Proofs.Grammar.Walks
import Concord.Proofs.Review.Suggestions
