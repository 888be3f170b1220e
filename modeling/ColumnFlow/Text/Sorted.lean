/-!
# Texts in order
-/

namespace ColumnFlow

/-- Texts in the order of their code points. -/
def sortTexts (texts : List String) : List String := texts.mergeSort fun a b => decide (a ≤ b)

end ColumnFlow
