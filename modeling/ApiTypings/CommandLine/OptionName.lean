/-
The options of the command line.

An option is written with two dashes and its name, and some also with one dash and a
letter.  It is a flag, or it has a value, which may be left out for one of them.
-/
namespace ApiTypings.CommandLine

/-- The options. -/
inductive OptionName
  | output
  | importRoot
  | helperDirectory
  | baseUrls
  | includeServerUrls
  | includeAbsoluteUrl
  | includeRelativeUrl
  | urlSearchParams
  | discriminator
  | requireDiscriminator
  | query
  | verbosity
  | help
  | version
  deriving DecidableEq, Repr

/-- Whether an option has a value. -/
inductive Arity
  | never
  | maybe
  | always
  deriving DecidableEq, Repr

namespace OptionName

def all : List OptionName := [
  .output, .importRoot, .helperDirectory, .baseUrls, .includeServerUrls, .includeAbsoluteUrl,
  .includeRelativeUrl, .urlSearchParams, .discriminator, .requireDiscriminator, .query,
  .verbosity, .help, .version]

/-- The name after two dashes. -/
def longName : OptionName → String
  | output => "output"
  | importRoot => "import"
  | helperDirectory => "emit-helpers"
  | baseUrls => "base-urls"
  | includeServerUrls => "include-server-urls"
  | includeAbsoluteUrl => "include-absolute-url"
  | includeRelativeUrl => "include-relative-url"
  | urlSearchParams => "experimental-urlsearchparams"
  | discriminator => "experimental-discriminator"
  | requireDiscriminator => "experimental-require-discriminator"
  | query => "jq-expr"
  | verbosity => "verbose"
  | help => "help"
  | version => "version"

/-- The letter after one dash. -/
def letter? : OptionName → Option Char
  | output => some 'o'
  | verbosity => some 'v'
  | help => some 'h'
  | version => some 'V'
  | _ => none

def arity : OptionName → Arity
  | output | importRoot | helperDirectory | baseUrls | discriminator | query => .always
  | includeServerUrls => .maybe
  | includeAbsoluteUrl | includeRelativeUrl | urlSearchParams | requireDiscriminator
  | verbosity | help | version => .never

/-- An option that may be given more than once: its values add up. -/
def isRepeatable : OptionName → Bool
  | baseUrls | verbosity => true
  | _ => false

/-- What an option is for. -/
def purpose : OptionName → String
  | output => "output .d.ts file (stdout if omitted)"
  | importRoot => "root the helper type modules are imported from"
  | helperDirectory => "write the helper type modules to <DIR>/types/ (pair with --import <DIR>)"
  | baseUrls => "comma separated list of custom base urls for paths to start with"
  | includeServerUrls => "include server URLs from the schema in the generated paths"
  | includeAbsoluteUrl => "include absolute URLs in the generated paths"
  | includeRelativeUrl => "include relative URLs in the generated paths"
  | urlSearchParams =>
    "use the fully typed URLSearchParamsString module for query strings and form bodies"
  | discriminator => "add a T extends \"<NAME>\" type parameter to every overload"
  | requireDiscriminator => "drop the default of the discriminator type parameter"
  | query => "JQ pre-process filter for the document; must yield exactly one value"
  | verbosity => "increase verbosity (-v, -vv, -vvv)"
  | help => "print help"
  | version => "print version"

/-- The option of a whole name; the beginning of a name is not enough. -/
def ofLongName? (name : String) : Option OptionName := all.find? fun o => o.longName == name

def ofLetter? (letter : Char) : Option OptionName := all.find? fun o => o.letter? == some letter

end OptionName
end ApiTypings.CommandLine
