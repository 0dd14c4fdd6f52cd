import PluralRule.Proofs.Caret
import PluralRule.Proofs.Composition
import PluralRule.Proofs.Equality
import PluralRule.Proofs.Evaluation.Connectives
import PluralRule.Proofs.Evaluation.Division
import PluralRule.Proofs.Layout
import PluralRule.Proofs.Limits
import PluralRule.Proofs.Measure
import PluralRule.Proofs.Outline
import PluralRule.Proofs.Reading.Reuse
import PluralRule.Proofs.Scanning.Resumption
import PluralRule.Proofs.Settings
import PluralRule.Proofs.Trimming
