/-
The lines of the helper module `utils`.

Nullish values, and the optional and required keys of object types.
-/
namespace ApiTypings.HelperModule

/-- Nullish values, and the optional and required keys of object types. -/
def keysLines : List String := [
  "/**",
  " * A type that represents a value that can be null or undefined.",
  " */",
  "export type Nullish<T> = T | null | undefined;",
  "",
  "/**",
  " * The keys of \x7b@link T\x7d which may be omitted.",
  " */",
  "export type OptionalKeys<T> = \x7b",
  "  [K in keyof T]-?: \x7b\x7d extends Pick<T, K> ? K : never;",
  "\x7d[keyof T];",
  "",
  "/**",
  " * The keys of \x7b@link T\x7d which must be present.",
  " */",
  "export type RequiredKeys<T> = Exclude<keyof T, OptionalKeys<T>>;"]

end ApiTypings.HelperModule
