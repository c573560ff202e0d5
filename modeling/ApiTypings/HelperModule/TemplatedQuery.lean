/-
The lines of the helper module `urlsearchparams`.

Query strings with known fields, as template types.
-/
namespace ApiTypings.HelperModule

/-- Query strings with known fields, as template types. -/
def templatedQueryLines : List String := [
  "// deno-fmt-ignore-file",
  "",
  "/**",
  " * You are in for a ride.",
  " * ",
  " * This file essentially only implements a single type: \x60URLSearchParamsString\x60.",
  " * It is a generic template string type which enforces the structure and",
  " * contents of string to conform to the passed record type.",
  " * ",
  " * The type is complex, slow and may be \"excessively deep and possibly infinite\"",
  " * so maybe don't use it in anything you want to be fast but it  was a fun",
  " * exercise which I may enable behind a flag.",
  " * ",
  " * @module",
  " */",
  "",
  "type URLSearchParamsValue = string | number | boolean | undefined | null;",
  "type URLSearchParamsRecord = Record<string, URLSearchParamsValue>;",
  "type URLSearchParamsKeyValue<K extends string, V extends URLSearchParamsValue> =",
  "  V extends true ? \x60$\x7bK\x7d=true\x60 | K",
  "                 : \x60$\x7bK\x7d=$\x7bNonNullable<V>\x7d\x60;",
  "",
  "/**",
  " * Recursively join the generic tuple of strings \x60A\x60 into a single string",
  " * delimited by the generic \x60S\x60. The generic \x60R\x60 is used to accumulate the",
  " * result.",
  " */",
  "type Join<A extends readonly string[], S extends string = \"\", R extends string = \"\"> =",
  "  // Early exit if the tuple is empty",
  "    A extends [] ? R",
  "  // Split out the head and tail of the tuple. Assert the type of the head and",
  "  // tail, we need to do this to get narrowing even though it is guaranteed by",
  "  // the type signature of the generic \x60A\x60.",
  "  : A extends [infer Head, ...infer Tail] ? Head extends string ? Tail extends string[]",
  "    // We skip the delimiter if the head is an empty string. This essentially",
  "    // filters out any empty strings from the tuple.",
  "    ? Head extends \"\" ? Join<Tail, S, R>",
  "    // Join the tail with the head and the delimiter. If the accumulator is",
  "    // empty we skip the delimiter. This is to avoid leading delimiters.",
  "    : Join<Tail, S, R extends \"\" ? \x60$\x7bHead\x7d\x60 : \x60$\x7bR\x7d$\x7bS\x7d$\x7bHead\x7d\x60>",
  "  : never : never",
  "  // Finally return the accumulated result.",
  "  : R;",
  "",
  "/** Prefixes the generic \x60S\x60 with \x60P\x60 if \x60S\x60 is not an empty string */",
  "type Prefix<S extends string, P extends string> = S extends \"\" ? \"\" : \x60$\x7bP\x7d$\x7bS\x7d\x60;",
  "",
  "/** Replaces never values with an empty string */",
  "type ReplaceNever<T> = [T] extends [never] ? \"\" : T;",
  "",
  "/**",
  " * Recursively generate a union of tuples in all possible orders and",
  " * combinations of the generic union \x60T\x60. The generic \x60R\x60 is used to accumulate",
  " * the result.",
  " * ",
  " * @example MayInclude<\"a\" | \"b\"> = [] | [\"a\"] | [\"b\", \"a\"] | [\"b\"] | [\"a\", \"b\"]",
  " */",
  "type MayInclude<T extends string, R extends readonly string[] = []> = R | \x7b [K in T]: MayInclude<Exclude<T, K>, [K, ...R]> \x7d[T];",
  "",
  "/**",
  " * Recursively generate a union of tuples in all possible orders of the generic",
  " * union \x60T\x60.",
  " * ",
  " * @example MustInclude<\"a\" | \"b\"> = [\"a\", \"b\"] | [\"b\", \"a\"]",
  " * @example MustInclude<\"a\" | \"b\" | \"c\"> = [\"a\", \"b\", \"c\"] | [\"a\", \"c\", \"b\"] | [\"b\", \"a\", \"c\"] | [\"b\", \"c\", \"a\"] | [\"c\", \"a\", \"b\"] | [\"c\", \"b\", \"a\"]",
  " */",
  "type MustInclude<T extends string> = \x7b [K in T]: Exclude<T, K> extends never ? [K] : [K, ...MustInclude<Exclude<T, K>>] \x7d[T];",
  "",
  "/**",
  " * Extracts all required search params as a union of \x60URLSearchParamsKeyValue\x60",
  " * from the generic \x60T\x60.",
  " */",
  "type RequiredURLSearchParams<T extends URLSearchParamsRecord> = \x7b",
  "  [K in keyof T]-?: K extends string",
  "  ? undefined extends T[K] ? never",
  "  : null extends T[K] ? never",
  "  : URLSearchParamsKeyValue<K, T[K]>",
  "  : never",
  "\x7d[keyof T];",
  "",
  "/**",
  " * Extracts all optional search params as a union of \x60URLSearchParamsKeyValue\x60",
  " * from the generic \x60T\x60.",
  " */",
  "type OptionalURLSearchParams<T extends URLSearchParamsRecord> = \x7b",
  "  [K in keyof T]-?: K extends string",
  "  ? undefined extends T[K] ? URLSearchParamsKeyValue<K, T[K]>",
  "  : null extends T[K] ? URLSearchParamsKeyValue<K, T[K]>",
  "  : never",
  "  : never",
  "\x7d[keyof T];",
  "",
  "/**",
  " * Converts a generic \x60URLSearchParamsRecord\x60 into a string that can be used as",
  " * a query string in a URL.",
  " */",
  "export type URLSearchParamsString<T extends URLSearchParamsRecord> =",
  "  Prefix<Join<[Join<MustInclude<ReplaceNever<RequiredURLSearchParams<T>>>>, Join<MayInclude<OptionalURLSearchParams<T>>, \"&\">], \"&\">, \"?\">;"]

end ApiTypings.HelperModule
