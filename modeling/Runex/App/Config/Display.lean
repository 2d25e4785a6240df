import Runex.App.Config

/-!
# The texts of configuration errors

## Main definitions

- `ConfigError.display` — what is printed for an error
-/

namespace Runex

/-- What is said about a field of a rule. -/
def ValidationReason.message : ValidationReason → Text
  | .tooManyRules => "config has too many abbr rules".toList
  | .keyEmpty => "key is empty (an empty key can never match anything)".toList
  | .keyWhitespaceOnly =>
    "key contains only whitespace (a whitespace-only key can never match)".toList
  | .keyTooLong =>
    "key exceeds maximum length of ".toList ++ decimal maxKeyBytes ++ " bytes".toList
  | .keyContainsNul => "key contains a NUL byte".toList
  | .keyContainsControlChar =>
    "key contains an ASCII control character (use printable characters only)".toList
  | .keyContainsDeceptiveUnicode =>
    "key contains a Unicode visual-deception character (invisible/directional char ".toList ++
      "that makes the key unmatchable or misleading)".toList
  | .expandEmpty =>
    "expand is empty (an empty expansion would silently delete the typed token)".toList
  | .expandWhitespaceOnly =>
    "expand contains only whitespace (a whitespace-only expansion is almost ".toList ++
      "certainly a config mistake)".toList
  | .expandTooLong =>
    "expand exceeds maximum length of ".toList ++ decimal maxExpandBytes ++ " bytes".toList
  | .expandContainsNul => "expand contains a NUL byte".toList
  | .expandContainsControlChar =>
    "expand contains an ASCII control character (use printable characters only)".toList
  | .expandContainsDeceptiveUnicode =>
    "expand contains a Unicode visual-deception character (invisible/directional char ".toList ++
      "that makes the expansion misleading)".toList
  | .tooManyCmds =>
    "when_command_exists has too many entries (max ".toList ++ decimal maxCmdListLen ++ [')']
  | .cmdEmpty =>
    "when_command_exists entry is empty (an empty command name can never be found)".toList
  | .cmdWhitespaceOnly =>
    "when_command_exists entry contains only whitespace (a whitespace-only command name ".toList ++
      "can never be found)".toList
  | .cmdTooLong =>
    "when_command_exists entry exceeds maximum length of ".toList ++ decimal maxCmdBytes ++
      " bytes".toList
  | .cmdContainsNul => "when_command_exists entry contains a NUL byte".toList
  | .cmdContainsControlChar =>
    "when_command_exists entry contains an ASCII control character (use printable ".toList ++
      "characters only)".toList
  | .cmdContainsDeceptiveUnicode =>
    "when_command_exists entry contains a Unicode visual-deception character".toList
  | .cmdContainsPathSeparator =>
    "when_command_exists entry contains a path separator ('/', '\\\\', or ':'); ".toList ++
      "only bare command names are allowed".toList
  | .cmdContainsMetacharacter =>
    "when_command_exists entry contains a shell metacharacter or glob pattern; ".toList ++
      "only bare command names are allowed".toList
  | .keyHasUnknownPlaceholder =>
    "key contains '\x7b' but no recognised placeholder (only '\x7bnumber\x7d' is supported)".toList
  | .keyHasMultipleNumberPlaceholders =>
    "key contains more than one '\x7bnumber\x7d' placeholder (only one is allowed)".toList
  | .keyHasNumberWithoutUnit =>
    "key contains '\x7bnumber\x7d' but no `number = \"<unit>\"` field is defined".toList
  | .numberFieldWithoutKeyPlaceholder =>
    "`number` field is set but the key has no '\x7bnumber\x7d' placeholder".toList
  | .numberEmpty => "`number` unit is empty".toList
  | .numberContainsNul => "`number` unit contains a NUL byte".toList
  | .numberContainsControlChar => "`number` unit contains an ASCII control character".toList
  | .numberContainsDeceptiveUnicode =>
    "`number` unit contains a Unicode visual-deception character".toList
  | .numberUnitTooLong =>
    "`number` unit exceeds maximum length of ".toList ++ decimal maxNumberUnitBytes ++
      " bytes".toList
  | .globKeyWithoutWildcard => "glob key has no `*` or `?` (use an exact key instead)".toList
  | .globKeyHasMultipleStars =>
    "glob key contains more than one `*` (only one is allowed)".toList
  | .globKeyHasUnsupportedChar =>
    "glob key contains one of [ ] \x7b \x7d ( ) \\ (only `*` and `?` are special in a glob key)".toList
  | .regexKeyInvalid engineText => "regex key does not compile: ".toList ++ engineText
  | .regexExpandGroupOutOfRange =>
    "expand refers to a group \x7b1\x7d..\x7b9\x7d that the regex key does not have".toList

/-- `Display` of an error. -/
def ConfigError.display : ConfigError → Text
  | .parse message => message
  | .io message => "IO error: ".toList ++ message
  | .fileTooLarge => "config file exceeds maximum size of 10 MB".toList
  | .tooManyRules =>
    "config has too many abbr rules (max ".toList ++ decimal maxAbbrRules ++ [')']
  | .unsupportedVersion version =>
    "unsupported config version ".toList ++ decimal version ++
      "; only version 1 is supported".toList
  | .rule reason n => "abbr rule #".toList ++ decimal n ++ ": ".toList ++ reason.message
  | .ctrlVAsTrigger label =>
    "[keybind.trigger.".toList ++ label ++ "] = \"ctrl-v\" is not a valid trigger; ".toList ++
      "ctrl-v is reserved for [keybind.paste_intercept]".toList
  | .ctrlVAsSelfInsert label =>
    "[keybind.self_insert.".toList ++ label ++
      "] = \"ctrl-v\" is not a valid self-insert binding; ".toList ++
      "ctrl-v is reserved for [keybind.paste_intercept]".toList
  | .pasteInterceptUnsupportedShell label =>
    "[keybind.paste_intercept.".toList ++ label ++
      "] is not supported (paste_intercept currently supports only nu); ".toList ++
      "remove or move to nu".toList
  | .pasteInterceptInvalidKey label key =>
    "[keybind.paste_intercept.".toList ++ label ++ "] = \"".toList ++ key ++
      "\" is not a valid paste-intercept binding; only ctrl-v is supported".toList

end Runex
