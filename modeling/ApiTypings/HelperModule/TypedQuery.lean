/-
The lines of the helper module `url_search_params`.

Query strings with known fields.
-/
namespace ApiTypings.HelperModule

/-- Query strings with known fields. -/
def typedQueryLines : List String := [
  "/*",
  " * Certain comments and type definitions are based off work from the official",
  " * TypeScript project, for those the following attribution is applicable:",
  " *",
  " * Copyright (c) Microsoft Corporation. All rights reserved.",
  " * Licensed under the Apache License, Version 2.0 (the \"License\"); you may not use",
  " * this file except in compliance with the License. You may obtain a copy of the",
  " * License at http://www.apache.org/licenses/LICENSE-2.0",
  " *",
  " * THIS CODE IS PROVIDED ON AN *AS IS* BASIS, WITHOUT WARRANTIES OR CONDITIONS OF ANY",
  " * KIND, EITHER EXPRESS OR IMPLIED, INCLUDING WITHOUT LIMITATION ANY IMPLIED",
  " * WARRANTIES OR CONDITIONS OF TITLE, FITNESS FOR A PARTICULAR PURPOSE,",
  " * MERCHANTABLITY OR NON-INFRINGEMENT.",
  " *",
  " * See the Apache Version 2.0 License for specific language governing permissions",
  " * and limitations under the License.",
  " */",
  "// deno-lint-ignore-file no-var",
  "",
  "import type \x7b Brand \x7d from \"./brand\";",
  "import type \x7b OptionalKeys, RequiredKeys \x7d from \"./utils\";",
  "",
  "type URLSearchParamsRecord = Record<string, string>;",
  "",
  "/**",
  " * A \x7b@link Brand branded\x7d string containing the URLSearchParams stringified representation of \x7b@link T\x7d.",
  " */",
  "export type URLSearchParamsString<T extends URLSearchParamsRecord> = Brand<",
  "  string,",
  "  T",
  ">;",
  "",
  "// TODO: Add support for the iterable variant of the init parameter",
  "export type URLSearchParamsInit<T extends URLSearchParamsRecord> =",
  "  | T",
  "  | URLSearchParamsString<T>;",
  "",
  "declare interface URLSearchParams<",
  "  T extends URLSearchParamsRecord = URLSearchParamsRecord,",
  "> \x7b",
  "  /**",
  "   * Appends a specified key/value pair as a new search parameter.",
  "   *",
  "   * \x60\x60\x60ts",
  "   * let searchParams = new URLSearchParams();",
  "   * searchParams.append('name', 'first');",
  "   * searchParams.append('name', 'second');",
  "   * \x60\x60\x60",
  "   */",
  "  append<K extends keyof T>(name: K, value: T[K]): void;",
  "",
  "  /**",
  "   * Deletes search parameters that match a name, and optional value,",
  "   * from the list of all search parameters.",
  "   *",
  "   * \x60\x60\x60ts",
  "   * let searchParams = new URLSearchParams([['name', 'value']]);",
  "   * searchParams.delete('name');",
  "   * searchParams.delete('name', 'value');",
  "   * \x60\x60\x60",
  "   */",
  "  delete<K extends OptionalKeys<T>>(name: K, value?: T[K]): void;",
  "",
  "  /**",
  "   * Returns all the values associated with a given search parameter",
  "   * as an array.",
  "   *",
  "   * \x60\x60\x60ts",
  "   * searchParams.getAll('name');",
  "   * \x60\x60\x60",
  "   */",
  "  get<K extends RequiredKeys<T>>(name: K): [T[K]];",
  "  get<K extends OptionalKeys<T>>(name: K): [] | [T[K]];",
  "",
  "  /**",
  "   * Returns the first value associated to the given search parameter.",
  "   *",
  "   * \x60\x60\x60ts",
  "   * searchParams.get('name');",
  "   * \x60\x60\x60",
  "   */",
  "  get<K extends keyof T>(name: K): T[K];",
  "",
  "  /**",
  "   * Returns a boolean value indicating if a given parameter,",
  "   * or parameter and value pair, exists.",
  "   *",
  "   * \x60\x60\x60ts",
  "   * searchParams.has('name');",
  "   * searchParams.has('name', 'value');",
  "   * \x60\x60\x60",
  "   */",
  "  has<K extends RequiredKeys<T>>(name: K): true;",
  "  has<K extends OptionalKeys<T>>(name: K): boolean;",
  "",
  "  /**",
  "   * Sets the value associated with a given search parameter to the",
  "   * given value. If there were several matching values, this method",
  "   * deletes the others. If the search parameter doesn't exist, this",
  "   * method creates it.",
  "   *",
  "   * \x60\x60\x60ts",
  "   * searchParams.set('name', 'value');",
  "   * \x60\x60\x60",
  "   */",
  "  set<K extends keyof T>(name: K, value: NonNullable<T[K]>): void;",
  "",
  "  /**",
  "   * Calls a function for each element contained in this object in",
  "   * place and return undefined. Optionally accepts an object to use",
  "   * as this when executing callback as second argument.",
  "   *",
  "   * \x60\x60\x60ts",
  "   * const params = new URLSearchParams([[\"a\", \"b\"], [\"c\", \"d\"]]);",
  "   * params.forEach((value, key, parent) => \x7b",
  "   *   console.log(value, key, parent);",
  "   * \x7d);",
  "   * \x60\x60\x60",
  "   */",
  "  forEach(",
  "    callbackfn: (value: T[keyof T], key: keyof T, parent: this) => void,",
  "    // deno-lint-ignore no-explicit-any",
  "    thisArg?: any,",
  "  ): void;",
  "",
  "  /**",
  "   * Returns an iterator allowing to go through all keys contained",
  "   * in this object.",
  "   *",
  "   * \x60\x60\x60ts",
  "   * const params = new URLSearchParams([[\"a\", \"b\"], [\"c\", \"d\"]]);",
  "   * for (const key of params.keys()) \x7b",
  "   *   console.log(key);",
  "   * \x7d",
  "   * \x60\x60\x60",
  "   */",
  "  keys(): IterableIterator<keyof T>;",
  "",
  "  /**",
  "   * Returns an iterator allowing to go through all values contained",
  "   * in this object.",
  "   *",
  "   * \x60\x60\x60ts",
  "   * const params = new URLSearchParams([[\"a\", \"b\"], [\"c\", \"d\"]]);",
  "   * for (const value of params.values()) \x7b",
  "   *   console.log(value);",
  "   * \x7d",
  "   * \x60\x60\x60",
  "   */",
  "  values(): IterableIterator<T[keyof T]>;",
  "",
  "  /**",
  "   * Returns an iterator allowing to go through all key/value",
  "   * pairs contained in this object.",
  "   *",
  "   * \x60\x60\x60ts",
  "   * const params = new URLSearchParams([[\"a\", \"b\"], [\"c\", \"d\"]]);",
  "   * for (const [key, value] of params.entries()) \x7b",
  "   *   console.log(key, value);",
  "   * \x7d",
  "   * \x60\x60\x60",
  "   */",
  "  entries(): IterableIterator<[keyof T, T[keyof T]]>;",
  "",
  "  /**",
  "   * Returns an iterator allowing to go through all key/value",
  "   * pairs contained in this object.",
  "   *",
  "   * \x60\x60\x60ts",
  "   * const params = new URLSearchParams([[\"a\", \"b\"], [\"c\", \"d\"]]);",
  "   * for (const [key, value] of params) \x7b",
  "   *   console.log(key, value);",
  "   * \x7d",
  "   * \x60\x60\x60",
  "   */",
  "  [Symbol.iterator](): IterableIterator<[keyof T, T[keyof T]]>;",
  "",
  "  /**",
  "   * Returns a query string suitable for use in a URL.",
  "   *",
  "   * \x60\x60\x60ts",
  "   * searchParams.toString();",
  "   * \x60\x60\x60",
  "   */",
  "  toString(): URLSearchParamsString<T>;",
  "",
  "  /**",
  "   * Contains the number of search parameters",
  "   *",
  "   * \x60\x60\x60ts",
  "   * searchParams.size",
  "   * \x60\x60\x60",
  "   */",
  "  size: number;",
  "\x7d",
  "",
  "declare var URLSearchParams: \x7b",
  "  readonly prototype: URLSearchParams;",
  "  new <T extends URLSearchParamsRecord>(",
  "    init?: URLSearchParamsInit<T>,",
  "  ): URLSearchParams<T>;",
  "\x7d;"]

end ApiTypings.HelperModule
