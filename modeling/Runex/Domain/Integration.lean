import Runex.Domain.Shell

/-!
# The line that sources the integration cache

## Main definitions

- `sanitizeNuCachePathLiteral` — a path without what nu's single quotes cannot hold
- `integrationLine` — the line of each shell
-/

namespace Runex

/-- Strip what would break out of a nu single-quoted literal. -/
def sanitizeNuCachePathLiteral (s : Text) : Text :=
  s.filter fun c => !(c == '\'' || c == '\n' || c == '\r' || c == '\t') && decide (c.toNat > 0x1F) &&
    c.toNat != 0x7F && !isDeceptiveUnicode c

/-- The line appended to the rc file. The clink line is a hint, a comment of its script. -/
def integrationLine (shell : Shell) (cachePath : Text) : Text :=
  match shell with
  | .bash | .zsh =>
    "[ -r ".toList ++ bashQuoteString cachePath ++ " ] && . ".toList ++ bashQuoteString cachePath
  | .pwsh =>
    "if (Test-Path ".toList ++ pwshQuoteString cachePath ++ ") \x7b . ".toList ++
      pwshQuoteString cachePath ++ " \x7d".toList
  | .nu =>
    let safe := sanitizeNuCachePathLiteral cachePath
    "if ('".toList ++ safe ++ "' | path exists) \x7b source '".toList ++ safe ++ "' \x7d".toList
  | .clink =>
    "-- runex clink integration is auto-loaded from ".toList ++ luaQuoteString cachePath

end Runex
