import ColumnFlow.Proofs.EdgeForm
import ColumnFlow.Proofs.ProjectedNames
import ColumnFlow.Proofs.SchemaQualifiers
import ColumnFlow.Proofs.SetOperations

/-!
# Columns of common and derived tables

The columns under which a common or a derived table is known and the edges into it come from two computations: the
names of its query or an explicit list on one side, the renamed columns of the query on the other. `Defines` says that
the two agree, and what a star over the table then reads.
-/

namespace ColumnFlow

namespace Column

variable {cs : List Column} {names : List String}

end Column

section

variable (env : Env) (projected : List Column) (columns : List String) (name : String)

variable {projected columns}

variable (columns) (span : Text.Span) (query : Query) (s : Scope)

end

end ColumnFlow
